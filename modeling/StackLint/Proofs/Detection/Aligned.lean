/-
  StackLint.Proofs.Detection.Aligned
  ──────────────────────────────────
  **FIXES ARE MADE AT EDGES OF TOKENS.**

  What a fix of a built-in rule replaces is a range of whole tokens, and what it
  inserts stands next to a token.  So no fix cuts a token or a comment, and no
  code is inserted into a comment, not even on texts with errors.
-/
import StackLint.Proofs.Detection.Sound
import StackLint.Proofs.Token.Comment

namespace StackLint

/-! ## §1. Sites. -/

namespace Layout

variable {L : Layout}

theorem token_mem {i : Nat} (h : i < L.size) : L.token i ∈ L.tokens := by
  rw [L.token_of_lt h]
  exact List.get_mem _ _

theorem exists_token_of_mem {t : Token} (h : t ∈ L.tokens) :
    ∃ i, i < L.size ∧ L.token i = t := by
  obtain ⟨i, inside, same⟩ := List.getElem_of_mem h
  refine ⟨i, inside, ?_⟩
  rw [L.token_of_lt inside]
  exact same

/-- Both ends of a site are edges of tokens. -/
theorem Site.edges {start stop : Nat} (site : L.Site start stop) : L.Edge start ∧ L.Edge stop := by
  cases site with
  | @tokens i j h inside =>
      cases j with
      | zero => exact absurd h (Nat.not_lt_zero _)
      | succ j => exact ⟨.start (Nat.lt_of_lt_of_le h inside), .stop inside⟩
  | front h => exact ⟨.start h, .start h⟩
  | @behind j h inside =>
      cases j with
      | zero => exact absurd h (Nat.lt_irrefl 0)
      | succ j => exact ⟨.stop inside, .stop inside⟩

/-- An edge is one of a token. -/
theorem Edge.exists_token {place : Nat} (edge : L.Edge place) :
    ∃ t ∈ L.tokens, place = t.start ∨ place = t.stop := by
  cases edge with
  | @start i h => exact ⟨L.token i, L.token_mem h, .inl rfl⟩
  | @stop i h => exact ⟨L.token i, L.token_mem h, .inr rfl⟩

/-- A site that has a width is made of whole tokens. -/
theorem Site.whole {start stop : Nat} (site : L.Site start stop) (wide : start < stop) :
    (∃ t ∈ L.tokens, start = t.start) ∧ ∃ t ∈ L.tokens, stop = t.stop := by
  cases site with
  | @tokens i j h inside =>
      cases j with
      | zero => exact absurd h (Nat.not_lt_zero _)
      | succ j =>
          exact ⟨⟨L.token i, L.token_mem (Nat.lt_of_lt_of_le h inside), rfl⟩,
            L.token j, L.token_mem inside, rfl⟩
  | front | behind => exact absurd wide (Nat.lt_irrefl _)

end Layout

/-! ## §2. Fixes. -/

/-- The place cuts no token, and what is put there belongs to no comment. -/
structure Layout.IsFree (L : Layout) (place : Nat) : Prop where
  tokens : ∀ t ∈ L.tokens, place ≤ t.start ∨ t.stop ≤ place
  comments : ∀ isOpen start stop, L.HasComment isOpen start stop →
    place ≤ start ∨ (stop ≤ place ∧ (isOpen = true → stop < place))

/-- **The fix is made at edges of tokens.**  The end of the text is none of the
tokens here. -/
structure Fix.Aligned (L : Layout) (f : Fix) : Prop where
  replaced : f.start < f.stop →
    (∃ t ∈ L.tokens, f.start = t.start) ∧ ∃ t ∈ L.tokens, f.stop = t.stop
  inserted : f.start = f.stop → ∃ t ∈ L.tokens, f.start = t.start ∨ f.start = t.stop
  start_free : L.IsFree f.start
  stop_free : L.IsFree f.stop

theorem Layout.Edge.isFree {L : Layout} {place : Nat} (edge : L.Edge place) : L.IsFree place where
  tokens t isToken := by
    obtain ⟨k, _, rfl⟩ := L.exists_token_of_mem isToken
    exact edge.not_in_token k
  comments _ _ _ isComment := edge.not_in_comment isComment

theorem Fix.Fits.aligned {L : Layout} {f : Fix} (fits : f.Fits L) : f.Aligned L := by
  obtain ⟨start, stop⟩ := fits.site.edges
  exact ⟨fits.site.whole, fun _ => start.exists_token, start.isFree, stop.isFree⟩

/-- **Every fix of a built-in rule is made at edges of tokens**, on every text that
the parser returns a tree for. -/
theorem Rule.fixes_aligned {path : Path} {text : Text} {source : Source}
    (read : Source.ofText path text = .ok source) :
    ∃ L : Layout, L.text = text ∧ ∀ r ∈ builtIn, ∃ found, r.detect source = .ok found
      ∧ ∀ v ∈ found, ∀ f ∈ v.fix, f.start ≤ f.stop ∧ f.Aligned L := by
  obtain ⟨L, on, same⟩ := Source.exists_layout read
  refine ⟨L, on.text.trans same, ?_⟩
  intro r isBuiltIn
  obtain ⟨found, isOk, fits⟩ := Rule.detect_reports isBuiltIn on
  refine ⟨found, isOk, ?_⟩
  intro v isFound f isFix
  have fits := (fits v isFound).fix f isFix
  exact ⟨fits.site.le, fits.aligned⟩

/-- A domain whose last member is followed by a comment with a comma in it. -/
def commented : Text :=
  "new sst.aws.Remix(\"web\", \x7b domain: \x7b name: \"a.b\" /* , */ \x7d \x7d)"

/-- The member that is missing is inserted in front of the comment. -/
theorem Rule.fixes_aligned_commented :
    ∃ source L found, Source.ofText ⟨.here, []⟩ commented = .ok source ∧ L.text = commented
      ∧ domainConfig.detect source = .ok found
      ∧ found.map (fun v => v.fix.map fun f => (f.start, f.stop)) = [some (48, 48)]
      ∧ ∀ v ∈ found, ∀ f ∈ v.fix, f.start ≤ f.stop ∧ f.Aligned L := by
  have evaluated : (Source.ofText ⟨.here, []⟩ commented).toOption.bind (fun source =>
      (domainConfig.detect source).toOption.map fun found =>
        found.map fun v => v.fix.map fun f => (f.start, f.stop))
      = some [some (48, 48)] := by decide +kernel
  cases read : Source.ofText ⟨.here, []⟩ commented with
  | error failure =>
      rw [read] at evaluated
      cases evaluated
  | ok source =>
      obtain ⟨L, same, aligned⟩ := Rule.fixes_aligned read
      obtain ⟨found, isOk, aligned⟩ := aligned domainConfig (.tail _ (.head _))
      rw [read] at evaluated
      simp only [Except.toOption, Option.bind_some, isOk, Option.map_some, Option.some.injEq]
        at evaluated
      exact ⟨source, L, found, rfl, same, isOk, evaluated, aligned⟩

end StackLint
