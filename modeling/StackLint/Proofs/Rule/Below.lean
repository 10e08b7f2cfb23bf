/-
  StackLint.Proofs.Rule.Below
  ───────────────────────────
  **A LINE IN FRONT OF A SOURCE.**

  `Source.Below k s s'` says that `s'` is the source `s` with one more line of
  `k` characters in front of it, its newline counted.  Rules look at places only
  relative to each other, so they report the same on both: one line further down,
  and with fixes that are moved by `k`.
-/
import StackLint.Proofs.Rule.Basic
import StackLint.Proofs.View.Shift
import StackLint.Rule.Registry

namespace StackLint

/-! ## §1. Checks that follow one another. -/

/-- Where the first check yields a value the second one does, and the values are
related. -/
def Follows {α β : Type} (R : α → β → Prop) (c : Check α) (c' : Check β) : Prop :=
  ∀ a, c = .ok a → ∃ b, c' = .ok b ∧ R a b

namespace Follows

variable {α α' β β' : Type} {R : α → α' → Prop} {S : β → β' → Prop}

theorem pure {a : α} {a' : α'} (h : R a a') : Follows R (pure a) (pure a') := by
  rintro _ ⟨⟩
  exact ⟨a', rfl, h⟩

/-- Nothing is found. -/
theorem nothing : Follows (Option.Rel R) (Pure.pure none) (Pure.pure none) :=
  pure .none

theorem nil : Follows (List.Forall₂ R) (Pure.pure []) (Pure.pure []) :=
  pure .nil

theorem bind {c : Check α} {c' : Check α'} {f : α → Check β} {f' : α' → Check β'}
    (first : Follows R c c') (next : ∀ a a', R a a' → Follows S (f a) (f' a')) :
    Follows S (c >>= f) (c' >>= f') := by
  intro b yields
  obtain ⟨a, isOk, yields⟩ := bind_eq_ok.mp yields
  obtain ⟨a', rfl, related⟩ := first a isOk
  exact next a a' related b yields

theorem ite {b : Prop} [Decidable b] {c d : Check α} {c' d' : Check α'}
    (yes : b → Follows R c c') (no : ¬ b → Follows R d d') :
    Follows R (if b then c else d) (if b then c' else d') := by
  split
  · next h => exact yes h
  · next h => exact no h

/-- Two branches that go on in the same way. -/
theorem ite_bind {b : Prop} [Decidable b] {c d : Check α} {c' d' : Check α'} {f : α → Check β}
    {f' : α' → Check β'} (yes : Follows R c c') (no : Follows R d d')
    (next : ∀ a a', R a a' → Follows S (f a) (f' a')) :
    Follows S (if b then c >>= f else d >>= f) (if b then c' >>= f' else d' >>= f') :=
  .ite (fun _ => yes.bind next) fun _ => no.bind next

/-- **One check after the other.** -/
theorem mapM {as : List α} {as' : List α'} {f : α → Check β} {f' : α' → Check β'}
    (same : List.Forall₂ R as as') (each : ∀ a ∈ as, ∀ a', R a a' → Follows S (f a) (f' a')) :
    Follows (List.Forall₂ S) (as.mapM f) (as'.mapM f') := by
  induction same with
  | nil => exact .pure .nil
  | @cons a a' as as' related _ ih =>
      rw [List.mapM_cons, List.mapM_cons]
      refine (each a (List.mem_cons_self ..) a' related).bind fun b b' first => ?_
      have later := ih fun a inside => each a (List.mem_cons_of_mem _ inside)
      refine later.bind fun bs bs' others => ?_
      exact .pure (.cons first others)

end Follows

/-! ## §2. Violations further down. -/

/-- The fix, moved by `k`. -/
structure Fix.Moved (k : Nat) (f f' : Fix) : Prop where
  oldCode : f'.oldCode = f.oldCode
  newCode : f'.newCode = f.newCode
  confidence : f'.confidence = f.confidence
  description : f'.description = f.description
  start : f'.start = f.start + k
  stop : f'.stop = f.stop + k

/-- What is wrong with a link to a resource that is declared on the given line. -/
def earlyLinkMessage (name : Text) (line : Nat) : Text :=
  "Using resource \"" ++ name ++ "\" before it is declared (line " ++ Text.ofNat line ++ ")"

/-- The messages are the same, but for a line that the first one quotes. -/
def MovedMessage (code message message' : Text) : Prop :=
  if code = "SST-VAL-052" then
    ∃ name line, message = earlyLinkMessage name line ∧ message' = earlyLinkMessage name (line + 1)
  else message' = message

/-- **The violation, one line further down**, with its fix moved by `k`. -/
structure Violation.Moved (k : Nat) (v v' : Violation) : Prop where
  code : v'.code = v.code
  severity : v'.severity = v.severity
  category : v'.category = v.category
  resource : v'.resource = v.resource
  property : v'.property = v.property
  message : MovedMessage v.code v.message v'.message
  line : v'.line = v.line + 1
  column : v'.column = v.column
  fix : Option.Rel (Fix.Moved k) v.fix v'.fix
  relatedCodes : v'.relatedCodes = v.relatedCodes
  docsUrl : v'.docsUrl = v.docsUrl

/-- The second check reports what the first one does, further down. -/
abbrev ReportsMoved (k : Nat) (c c' : Check (Option Violation)) : Prop :=
  Follows (Option.Rel (Violation.Moved k)) c c'

/-- The same for checks that report several violations. -/
abbrev ReportsAllMoved (k : Nat) (c c' : Check (List Violation)) : Prop :=
  Follows (List.Forall₂ (Violation.Moved k)) c c'

/-- The second check offers the fix that the first one does, moved. -/
abbrev OffersMoved (k : Nat) (c c' : Check (Option Fix)) : Prop :=
  Follows (Option.Rel (Fix.Moved k)) c c'

section

variable {α α' : Type} {R : α → α' → Prop} {k : Nat} {as : List α} {as' : List α'}

theorem forall₂_filterMap_id {β β' : Type} {S : β → β' → Prop} {bs : List (Option β)}
    {bs' : List (Option β')} (same : List.Forall₂ (Option.Rel S) bs bs') :
    List.Forall₂ S (bs.filterMap id) (bs'.filterMap id) :=
  List.rel_filterMap (fun _ _ related => related) same

/-- The reports of several checks in a row. -/
theorem ReportsMoved.mapM {check : α → Check (Option Violation)}
    {check' : α' → Check (Option Violation)} (same : List.Forall₂ R as as')
    (each : ∀ a ∈ as, ∀ a', R a a' → ReportsMoved k (check a) (check' a')) :
    ReportsAllMoved k (do return (← as.mapM check).filterMap id)
      (do return (← as'.mapM check').filterMap id) :=
  (Follows.mapM same each).bind fun _ _ reports => .pure (forall₂_filterMap_id reports)

theorem ReportsAllMoved.mapM {check : α → Check (List Violation)}
    {check' : α' → Check (List Violation)} (same : List.Forall₂ R as as')
    (each : ∀ a ∈ as, ∀ a', R a a' → ReportsAllMoved k (check a) (check' a')) :
    ReportsAllMoved k (do return (← as.mapM check).flatten)
      (do return (← as'.mapM check').flatten) :=
  (Follows.mapM same each).bind fun _ _ reports => .pure (List.rel_flatten reports)

end

/-! ## §3. Sources. -/

/-- **The second source has one more line in front**, of `k` characters. -/
structure Source.Below (k : Nat) (s s' : Source) : Prop where
  path : s'.path = s.path
  text : ∃ line, line.length = k ∧ s'.text = line ++ s.text
  lineStarts : s'.lineStarts = 0 :: s.lineStarts.map (· + k)
  firstLine : ∃ others, s.lineStarts = 0 :: others
  tree : Node.MovedProgram k s.tree s'.tree

namespace Source.Below

variable {k : Nat} {s s' : Source}

/-- Every piece of the text is found again. -/
theorem slice (below : Below k s s') (start stop : Nat) :
    s'.text.slice (start + k) (stop + k) = s.text.slice start stop := by
  obtain ⟨line, length, whole⟩ := below.text
  unfold Text.slice
  rw [whole, ← length, Nat.add_comm start, ← List.drop_drop, List.drop_left]
  congr 1
  omega

theorem textOf (below : Below k s s') (n : Tree) : s'.textOf (n.shift k) = s.textOf n := by
  unfold Source.textOf
  rw [n.shift_info]
  exact below.slice _ _

theorem length (below : Below k s s') : s'.text.length = s.text.length + k := by
  obtain ⟨line, length, whole⟩ := below.text
  rw [whole, List.length_append, length, Nat.add_comm]

theorem clamp (below : Below k s s') (offset : Nat) :
    s'.clamp ↑(offset + k) = s.clamp offset + k := by
  unfold Source.clamp clampOffset
  rw [below.length]
  omega

/-- The lines that begin up to an offset. -/
theorem takeWhile_lineStarts (below : Below k s s') (offset : Nat) :
    s'.lineStarts.takeWhile (· ≤ offset + k)
      = 0 :: (s.lineStarts.takeWhile (· ≤ offset)).map (· + k) := by
  rw [below.lineStarts, List.takeWhile_cons_of_pos (by simp), List.takeWhile_map]
  congr 3
  funext start
  simp

theorem lineStartOf (below : Below k s s') (offset : Nat) :
    StackLint.lineStartOf s'.lineStarts (offset + k)
      = StackLint.lineStartOf s.lineStarts offset + k := by
  obtain ⟨others, starts⟩ := below.firstLine
  unfold StackLint.lineStartOf
  rw [below.takeWhile_lineStarts, starts, List.takeWhile_cons_of_pos (by simp), List.map_cons,
    List.getLast?_cons_cons]
  show ((0 :: others.takeWhile (· ≤ offset)).map (· + k)).getLast?.getD 0 = _
  rw [List.getLast?_map]
  cases last : (0 :: others.takeWhile (· ≤ offset)).getLast? with
  | none => cases List.getLast?_eq_none_iff.mp last
  | some start => rfl

theorem position (below : Below k s s') (offset : Nat) :
    s'.position ↑(offset + k)
      = ⟨(s.position offset).line + 1, (s.position offset).column⟩ := by
  unfold Source.position Position.ofOffset
  rw [below.clamp, below.lineStartOf, below.takeWhile_lineStarts, List.length_cons,
    List.length_map, Nat.add_sub_add_right]

theorem lineIndent (below : Below k s s') (offset : Nat) :
    s'.lineIndent ↑(offset + k) = s.lineIndent offset := by
  obtain ⟨line, length, whole⟩ := below.text
  unfold Source.lineIndent
  rw [below.clamp, below.lineStartOf, whole, ← length, Nat.add_comm _ line.length,
    ← List.drop_drop, List.drop_left]

theorem lineOf (below : Below k s s') (n : Tree) : s'.lineOf (n.shift k) = s.lineOf n + 1 := by
  unfold Source.lineOf
  rw [n.shift_info, below.position]

theorem charAt (below : Below k s s') (offset : Nat) :
    Follows Eq (s.charAt offset) (s'.charAt (offset + k)) := by
  obtain ⟨line, length, whole⟩ := below.text
  have same : s'.text[offset + k]? = s.text[offset]? := by
    rw [whole, ← length, List.getElem?_append_right (Nat.le_add_left _ _), Nat.add_sub_cancel]
  unfold Source.charAt
  rw [same]
  intro c read
  cases found : s.text[offset]? with
  | none =>
      rw [found] at read
      cases read
  | some d =>
      rw [found] at read
      exact ⟨d, rfl, (Except.ok.inj read).symm⟩

/-! ## §4. Fixes and violations. -/

theorem fix (below : Below k s s') (start stop : Nat) (newCode : Text) (confidence : Confidence)
    (description : Text) :
    Follows (Fix.Moved k) (s.fix start stop newCode confidence description)
      (s'.fix (start + k) (stop + k) newCode confidence description) := by
  unfold Source.fix Fix.make
  rw [below.slice]
  by_cases inRange : (0 : Int) ≤ start ∧ (start : Int) ≤ stop
  · have inRange' :
        (0 : Int) ≤ (start + k : Nat) ∧ ((start + k : Nat) : Int) ≤ (stop + k : Nat) := by
      omega
    rw [dif_pos inRange, dif_pos inRange']
    rintro _ ⟨⟩
    exact ⟨_, rfl, rfl, rfl, rfl, rfl, rfl, rfl⟩
  · rw [dif_neg inRange]
    rintro _ ⟨⟩

theorem replace (below : Below k s s') (n : Tree) (newCode : Text) (confidence : Confidence)
    (description : Text) :
    Follows (Fix.Moved k) (s.replace n newCode confidence description)
      (s'.replace (n.shift k) newCode confidence description) := by
  unfold Source.replace
  rw [n.shift_info]
  exact below.fix _ _ _ _ _

theorem violation (below : Below k s s') {code message message' : Text} (n : Tree)
    {resource property : Text} {severity : Severity} {fix fix' : Option Fix}
    (sameMessage : MovedMessage code message message')
    (sameFix : Option.Rel (Fix.Moved k) fix fix') :
    Follows (Violation.Moved k) (s.violation code n resource property message severity fix)
      (s'.violation code (n.shift k) resource property message' severity fix') := by
  unfold Source.violation
  cases Catalog.find? code with
  | none =>
      rintro _ ⟨⟩
  | some entry =>
      rintro _ ⟨⟩
      dsimp only
      rw [n.shift_info, below.position]
      exact ⟨_, rfl, rfl, rfl, rfl, rfl, rfl, sameMessage, rfl, rfl, sameFix, rfl, rfl⟩

/-- A violation whose message quotes no line. -/
theorem report (below : Below k s s') {code message : Text} (n : Tree)
    {resource property : Text} {severity : Severity} {fix fix' : Option Fix}
    (quotesNoLine : code ≠ "SST-VAL-052") (sameFix : Option.Rel (Fix.Moved k) fix fix') :
    ReportsMoved k
      (do return some (← s.violation code n resource property message severity fix))
      (do
        return some
          (← s'.violation code (n.shift k) resource property message severity fix')) := by
  refine (below.violation n ?_ sameFix).bind fun _ _ moved => .pure (.some moved)
  unfold MovedMessage
  rw [if_neg quotesNoLine]

/-- The same with a fix. -/
theorem fixed (below : Below k s s') {code message : Text} (n : Tree) {resource property : Text}
    {severity : Severity} {c c' : Check Fix} (quotesNoLine : code ≠ "SST-VAL-052")
    (sameFix : Follows (Fix.Moved k) c c') :
    ReportsMoved k
      (do
        let fix ← c
        return some (← s.violation code n resource property message severity (some fix)))
      (do
        let fix ← c'
        return some
          (← s'.violation code (n.shift k) resource property message severity (some fix))) :=
  sameFix.bind fun _ _ moved => below.report n quotesNoLine (.some moved)

/-! ## §5. Whole trees. -/

/-- A rule that checks all nodes, but has nothing to say about the root. -/
theorem visits (below : Below k s s') {check : Source → Visit Span → Check (Option Violation)}
    (root : ∀ s span statements, check s ⟨.mk span (.program statements), []⟩ = pure none)
    (each : ∀ visit visit', Node.MovedVisit k visit visit' →
      ReportsMoved k (check s visit) (check s' visit')) :
    ReportsAllMoved k (do return (← s.tree.visits.mapM (check s)).filterMap id)
      (do return (← s'.tree.visits.mapM (check s')).filterMap id) := by
  obtain ⟨visits, visits', isVisits, isVisits', same⟩ := below.tree.visits
  obtain ⟨span, span', statements, isTree, isTree'⟩ := below.tree
  rw [isVisits, isVisits']
  refine ReportsMoved.mapM (R := fun visit visit' =>
    ReportsMoved k (check s visit) (check s' visit')) (.cons ?_ (same.imp each))
    fun _ _ _ reports => reports
  rw [isTree, isTree', root, root]
  exact .nothing

/-- The members of a list and their images. -/
theorem forall₂_map {α β : Type} (f : α → β) (as : List α) :
    List.Forall₂ (fun a b => b = f a) as (as.map f) :=
  List.forall₂_map_right_iff.mpr (List.forall₂_same.mpr fun _ _ => rfl)

/-- A rule that checks all resources of some types. -/
theorem resourcesOf (below : Below k s s') {types : List Text}
    {check check' : Resource Span → Check (List Violation)}
    (each : ∀ r ∈ s.tree.resourcesOf types, ReportsAllMoved k (check r) (check' (r.shift k))) :
    ReportsAllMoved k (do return (← (s.tree.resourcesOf types).mapM check).flatten)
      (do return (← (s'.tree.resourcesOf types).mapM check').flatten) := by
  rw [below.tree.resourcesOf]
  refine ReportsAllMoved.mapM (forall₂_map _ _) fun r isResource r' isMoved => ?_
  rw [isMoved]
  exact each r isResource

end Source.Below

end StackLint
