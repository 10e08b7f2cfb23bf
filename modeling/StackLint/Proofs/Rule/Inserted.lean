/-
  StackLint.Proofs.Rule.Inserted
  ──────────────────────────────
  **INSERTED MEMBERS ARE CODE OF THEIR OWN.**

  The rule on domains inserts members behind the last one of an object, and an object as
  the only argument of a call.  Both stand in front of a closing bracket, so the tokens of
  the new code come between those that were there, in every text that was parsed without a
  complaint and closes all its literals.
-/
import StackLint.Proofs.Parse.Nested
import StackLint.Proofs.Rule.Found
import StackLint.Proofs.Rule.Reports
import StackLint.Proofs.Token.Insertion
import StackLint.Rule.Registry

namespace StackLint

open Scan (Scans Insertable)

/-! ## §1. Spliced tokens. -/

/-- **The tokens of the fixed text** are those of the text up to the fix, then those of the new
code, and then the others. -/
def Fix.Splices (f : Fix) (text : Text) (fixed : List Token) : Prop :=
  ∃ before after code final code' after',
    tokenize text = .ok (before ++ after) ∧ (∀ t ∈ before, t.stop ≤ f.start)
      ∧ (∀ t ∈ after, f.start ≤ t.start)
      ∧ tokenize f.newCode = .ok (code ++ [final]) ∧ final.lexeme = .endOfText
      ∧ fixed = before ++ code' ++ after' ∧ Token.MovedBy f.start code code'
      ∧ Token.MovedBy f.newCode.length after after'

/-- Between two places there is one token, and it is a comma. -/
def Token.OneComma (tokens : List Token) (start stop : Nat) : Prop :=
  ∃ front comma rest, tokens = front ++ comma :: rest ∧ (∀ t ∈ front, t.stop ≤ start)
    ∧ start ≤ comma.start ∧ comma.is .comma = true ∧ comma.stop ≤ stop
    ∧ ∀ t ∈ rest, stop ≤ t.start

namespace Token

/-- From one place to another. -/
theorem MovedBy.trans {distance : Nat} {tokens tokens₀ tokens' : List Token}
    (there : MovedBy 0 tokens tokens₀) (moved : MovedBy distance tokens tokens') :
    MovedBy distance tokens₀ tokens' := by
  unfold MovedBy at there moved ⊢
  have same : tokens₀.map placed = tokens.map placed := there
  have shifted (tokens : List Token) : tokens.map (fun t => (t.shift distance).placed)
      = (tokens.map placed).map fun p => (p.1, p.2.1 + distance, p.2.2 + distance) := by
    rw [List.map_map]
    rfl
  rw [moved, shifted, shifted, same]

/-- Moved tokens begin behind the distance. -/
theorem MovedBy.le_start {distance bound : Nat} {tokens tokens' : List Token}
    (moved : MovedBy distance tokens tokens') (le : ∀ t ∈ tokens, bound ≤ t.start) :
    ∀ t ∈ tokens', bound + distance ≤ t.start := by
  intro t inside
  obtain ⟨u, isToken, same⟩ := moved.exists_mem inside
  have start : t.start = u.start + distance := congrArg (fun p => p.2.1) same
  have lower := le u isToken
  omega

end Token

namespace Layout

variable {L : Layout}

/-- The tokens around a place. -/
theorem scanned_around (L : Layout) (i : Nat) :
    tokenize L.text = .ok (L.tokens.take i ++ (L.tokens.drop i ++ [L.final])) := by
  rw [L.scanned, ← List.append_assoc, List.take_append_drop]

/-- A fix whose code was inserted in front of the token `i`. -/
theorem splices {f : Fix} {i : Nat} {code code' after' : List Token}
    (behind : L.stopBefore i ≤ f.start) (before : f.start ≤ L.startAt i)
    (insertable : Insertable f.newCode code) (moved : Token.MovedBy f.start code code')
    (moved' : Token.MovedBy f.newCode.length (L.tokens.drop i ++ [L.final]) after') :
    f.Splices L.text (L.tokens.take i ++ code' ++ after') := by
  obtain ⟨code₀, final, read, isEnd, there⟩ := insertable.tokenize_eq
  exact ⟨_, _, code₀, final, code', after', L.scanned_around i,
    fun t inside => Nat.le_trans (L.stop_le_of_mem_take inside) behind,
    fun t inside => Nat.le_trans before (L.le_start_of_mem_drop inside),
    read, isEnd, rfl, there.trans moved, moved'⟩

variable {code code' after' : List Token} {width length : Nat}

/-- What comes behind the beginning of inserted code. -/
theorem le_start_behind {i place : Nat} (moved : Token.MovedBy place (code.map (Token.shift width)) code')
    (moved' : Token.MovedBy length (L.tokens.drop i ++ [L.final]) after')
    (before : place ≤ L.startAt i) (fits : width ≤ length) :
    ∀ t ∈ code' ++ after', place + width ≤ t.start := by
  intro t inside
  rcases List.mem_append.mp inside with inside | inside
  · have lower : ∀ u ∈ code.map (Token.shift width), width ≤ u.start := by
      intro u isCode
      obtain ⟨u, _, rfl⟩ := List.mem_map.mp isCode
      exact Nat.le_add_left width u.start
    have start := moved.le_start lower t inside
    omega
  · have start := moved'.le_start (fun u isToken => L.le_start_of_mem_drop isToken) t inside
    omega

/-- The comma was there. -/
theorem oneComma_kept {k : Nat} (isComma : (L.token k).is .comma = true)
    (moved : Token.MovedBy (L.stopBefore (k + 1)) (code.map (Token.shift width)) code')
    (moved' : Token.MovedBy length (L.tokens.drop (k + 1) ++ [L.final]) after')
    (fits : width ≤ length) :
    Token.OneComma (L.tokens.take (k + 1) ++ code' ++ after') (L.stopBefore k)
      (L.stopBefore (k + 1) + width) := by
  have inside := lt_size_of_is isComma
  have split : L.tokens.take (k + 1) = L.tokens.take k ++ [L.token k] := by
    rw [L.token_of_lt inside]
    exact List.take_succ_eq_append_getElem inside
  refine ⟨L.tokens.take k, L.token k, code' ++ after', ?_, fun t => L.stop_le_of_mem_take,
    L.stopBefore_le_startAt k, isComma, Nat.le_add_right _ _,
    le_start_behind moved moved' (L.stopBefore_le_startAt (k + 1)) fits⟩
  rw [split]
  simp

/-- The comma was inserted. -/
theorem oneComma_inserted {k : Nat} {comma : Token} (isComma : comma.lexeme = .punct .comma)
    (start : comma.start = 0) (stop : comma.stop ≤ width)
    (moved : Token.MovedBy (L.stopBefore k) (comma :: code.map (Token.shift width)) code')
    (moved' : Token.MovedBy length (L.tokens.drop k ++ [L.final]) after') (fits : width ≤ length) :
    Token.OneComma (L.tokens.take k ++ code' ++ after') (L.stopBefore k)
      (L.stopBefore k + width) := by
  cases code' with
  | nil => cases moved
  | cons first others =>
      unfold Token.MovedBy at moved
      rw [List.map_cons, List.map_cons, List.cons.injEq] at moved
      obtain ⟨same, moved⟩ := moved
      have lexeme : first.lexeme = comma.lexeme := congrArg (fun p => p.1) same
      have starts : first.start = comma.start + L.stopBefore k := congrArg (fun p => p.2.1) same
      have stops : first.stop = comma.stop + L.stopBefore k := congrArg (fun p => p.2.2) same
      refine ⟨L.tokens.take k, first, others ++ after', ?_, fun t => L.stop_le_of_mem_take, ?_, ?_,
        ?_, le_start_behind moved moved' (L.stopBefore_le_startAt k) fits⟩
      · simp
      · omega
      · unfold Token.is
        rw [lexeme, isComma]
        rfl
      · omega

end Layout

/-! ## §2. Members as they are written. -/

namespace DomainConfig

open Scan

/-- The members that the rule writes. -/
def snippets : List Text :=
  [overrideSnippet, providerSnippet]

theorem scans_space : Scans false (" " : Text) [] :=
  scans_blank (by decide)

theorem scans_colon : Scans false (":" : Text) [⟨.punct .colon, 0, 1, false⟩] :=
  scans_mark (fun _ => rfl) (by decide) (by decide) (fun _ => rfl) fun _ _ => rfl

theorem overrideSnippet_scans : ∃ code, Scans true overrideSnippet code := by
  have name : Scans true ("override" : Text) _ :=
    scans_name (fun _ => rfl) (.inr (by decide)) (by decide)
  have value : Scans true ("true" : Text) _ :=
    scans_name (fun _ => rfl) (.inr (by decide)) (by decide)
  have key := (name.append scans_colon fun _ => ⟨':', rfl, rfl⟩).append scans_space nofun
  exact ⟨_, key.append value nofun⟩

theorem overrideInBraces_scans : ∃ code, Scans false (inBraces overrideSnippet) code := by
  obtain ⟨code, scans⟩ := overrideSnippet_scans
  exact ⟨_, ((scans_space.append scans nofun).append scans_space fun _ => ⟨' ', rfl, rfl⟩).inBraces⟩

theorem providerSnippet_scans : ∃ code, Scans true providerSnippet code := by
  obtain ⟨code, override⟩ := overrideSnippet_scans
  have name : Scans true ("dns" : Text) _ :=
    scans_name (fun _ => rfl) (.inr (by decide)) (by decide)
  have sst : Scans true ("sst" : Text) _ :=
    scans_name (fun _ => rfl) (.inr (by decide)) (by decide)
  have aws : Scans true ("aws" : Text) _ :=
    scans_name (fun _ => rfl) (.inr (by decide)) (by decide)
  have zone : Scans true ("zone" : Text) _ :=
    scans_name (fun _ => rfl) (.inr (by decide)) (by decide)
  have plain : Plain .double "YOUR_ZONE_ID" := by decide
  have zoneId : Scans false ("\"YOUR_ZONE_ID\"" : Text) _ := scans_string plain
  have opener : Scans false ("(" : Text) [⟨.punct .openParen, 0, 1, false⟩] :=
    scans_mark (fun _ => rfl) (by decide) (by decide) (fun _ => rfl) fun _ _ => rfl
  have closer : Scans false (")" : Text) [⟨.punct .closeParen, 0, 1, false⟩] :=
    scans_mark (fun _ => rfl) (by decide) (by decide) (fun _ => rfl) fun _ _ => rfl
  -- The provider is a call, and its argument has two members.
  have key := (name.append scans_colon fun _ => ⟨':', rfl, rfl⟩).append scans_space nofun
  have callee := (sst.append (aws.member rfl fun _ _ => rfl) fun _ => ⟨'.', rfl, rfl⟩).append
    (name.member rfl fun _ _ => rfl) fun _ => ⟨'.', rfl, rfl⟩
  have first := ((zone.append scans_colon fun _ => ⟨':', rfl, rfl⟩).append scans_space nofun).append
    zoneId nofun
  have members := ((((scans_space.append first nofun).append scans_comma nofun).append scans_space
    nofun).append override nofun).append scans_space fun _ => ⟨' ', rfl, rfl⟩
  have call := ((callee.append opener fun _ => ⟨'(', rfl, rfl⟩).append members.inBraces nofun).append
    closer nofun
  exact ⟨_, (key.append call nofun).weaken⟩

theorem scans_of_mem_snippets {snippet : Text} (listed : snippet ∈ snippets) :
    ∃ code, Scans true snippet code := by
  rcases List.mem_cons.mp listed with rfl | listed
  · exact overrideSnippet_scans
  · rw [List.mem_singleton.mp listed]
    exact providerSnippet_scans

theorem isBlank_lineIndent (s : Source) (offset : Int) : IsBlank (s.lineIndent offset) := by
  intro c inside
  have blank := List.all_eq_true.mp List.all_takeWhile c inside
  rw [Bool.or_eq_true, decide_eq_true_eq, decide_eq_true_eq] at blank
  rcases blank with rfl | rfl <;> exact .inr (by decide)

/-- A member, with what leads to it and maybe with a comma behind it. -/
theorem exists_insertable {lead snippet trail : Text} {leadCode : List Token}
    (isLead : Scans false lead leadCode) (begins : ∃ d ∈ lead.head?, d ∈ (" \n,\x7b" : Text))
    (plain : ∀ e ∈ lead, e ∉ ("/[]\\" : Text)) (listed : snippet ∈ snippets)
    (isTrail : trail ∈ [([] : Text), ","]) :
    ∃ code : List Token, Insertable (lead ++ snippet ++ trail)
      (leadCode ++ code.map (Token.shift lead.length)) := by
  obtain ⟨code, scans⟩ := scans_of_mem_snippets listed
  have written : ∃ code, Scans true (snippet ++ trail) code := by
    rcases List.mem_cons.mp isTrail with rfl | isTrail
    · rw [List.append_nil]
      exact ⟨code, scans⟩
    · rw [List.mem_singleton.mp isTrail]
      exact ⟨_, (scans.append scans_comma fun _ => ⟨',', rfl, rfl⟩).weaken⟩
  have plainSnippet : ∀ snippet ∈ snippets, ∀ e ∈ snippet, e ∉ ("/[]\\" : Text) := by decide
  have plainTrail : ∀ trail ∈ [([] : Text), ","], ∀ e ∈ trail, e ∉ ("/[]\\" : Text) := by decide
  obtain ⟨code', scans'⟩ := written
  refine ⟨code', ?_, ?_, ?_⟩
  · rw [List.append_assoc]
    exact isLead.append scans' nofun
  · obtain ⟨d, isHead, listed⟩ := begins
    refine ⟨d, ?_, listed⟩
    rw [List.append_assoc, List.head?_append, Option.mem_def.mp isHead]
    rfl
  · intro e inside
    rcases List.mem_append.mp inside with inside | inside
    · rcases List.mem_append.mp inside with inside | inside
      · exact plain e inside
      · exact plainSnippet snippet listed e inside
    · exact plainTrail trail isTrail e inside

/-- What is written behind a comma. -/
theorem exists_behindComma {indent snippet : Text} (blank : IsBlank indent)
    (listed : snippet ∈ snippets) (multiline : Bool) :
    ∃ (lead trail : Text) (code : List Token),
      (if multiline then "\n" ++ indent ++ snippet ++ "," else " " ++ snippet : Text)
        = lead ++ snippet ++ trail
      ∧ Insertable (lead ++ snippet ++ trail) (code.map (Token.shift lead.length)) := by
  cases multiline with
  | true =>
      have blank : IsBlank ("\n" ++ indent) := .append (by decide) blank
      obtain ⟨code, insertable⟩ := exists_insertable (scans_blank blank)
        ⟨'\n', rfl, by decide⟩ blank.plain listed
        (show ("," : Text) ∈ [([] : Text), ","] by decide)
      exact ⟨_, _, code, rfl, insertable⟩
  | false =>
      obtain ⟨code, insertable⟩ := exists_insertable scans_space
        ⟨' ', rfl, by decide⟩ (by decide) listed List.mem_cons_self
      exact ⟨_, [], code, (List.append_nil _).symm, insertable⟩

/-- What is written where there is no comma yet. -/
theorem exists_withComma {indent snippet : Text} (blank : IsBlank indent)
    (listed : snippet ∈ snippets) (multiline : Bool) :
    ∃ (lead : Text) (code : List Token),
      (if multiline then ",\n" ++ indent ++ snippet else ", " ++ snippet : Text) = lead ++ snippet
      ∧ 0 < lead.length ∧ Insertable (lead ++ snippet)
        (⟨.punct .comma, 0, 1, false⟩ :: code.map (Token.shift lead.length)) := by
  have written {blanks : Text} (blank : IsBlank blanks) : ∃ code : List Token,
      Insertable ("," ++ blanks ++ snippet)
        (⟨.punct .comma, 0, 1, false⟩ :: code.map (Token.shift ("," ++ blanks : Text).length)) := by
    have plain : ∀ e ∈ ("," ++ blanks : Text), e ∉ ("/[]\\" : Text) := by
      intro e inside
      rcases List.mem_cons.mp inside with rfl | inside
      · decide
      · exact blank.plain e inside
    obtain ⟨code, insertable⟩ := exists_insertable (scans_comma.append (scans_blank blank) nofun)
      ⟨',', rfl, by decide⟩ plain listed List.mem_cons_self
    rw [List.append_nil] at insertable
    exact ⟨code, insertable⟩
  cases multiline with
  | true =>
      have blank : IsBlank ("\n" ++ indent) := .append (by decide) blank
      obtain ⟨code, insertable⟩ := written blank
      exact ⟨_, code, rfl, Nat.succ_pos _, insertable⟩
  | false =>
      have blank : IsBlank " " := by decide
      obtain ⟨code, insertable⟩ := written blank
      exact ⟨_, code, rfl, Nat.succ_pos _, insertable⟩

/-! ## §3. What the rule inserts. -/

/-- **What a fix inserts.** -/
inductive Inserts (s : Source) (f : Fix) (fixed : List Token) : Prop where
  /-- A member behind the last one of an object, with one comma between the two. -/
  | member {object last : Tree} {members : List Tree} {lead snippet trail : Text}
      (inside : object ∈ s.tree.preorder) (form : object.form = .objectLiteral members)
      (isLast : members.getLast? = some last) (behind : last.info.stop ≤ f.start)
      (before : f.start < object.info.stop) (listed : snippet ∈ snippets)
      (newCode : f.newCode = lead ++ snippet ++ trail)
      (comma : Token.OneComma fixed last.info.stop (f.start + lead.length))
  /-- The argument of a call that has none. -/
  | argument {call : Tree} (inside : call ∈ s.tree.preorder)
      (isCall : callArguments? call = some []) (place : f.start + 1 = call.info.stop)
      (newCode : f.newCode = inBraces overrideSnippet)

/-- **The fix inserts tokens between those of the text,** and leaves those as they are. -/
def InsertsCleanly (s : Source) (f : Fix) : Prop :=
  ∃ fixed, tokenize (f.apply s.text) = .ok fixed ∧ f.Splices s.text fixed ∧ Inserts s f fixed

variable {s : Source} {L : Layout} {f : Fix}

/-- The tokens of a text with code inserted behind the token `i`. -/
theorem exists_fixed_behind (on : s.On L) (closed : s.text.closesLiterals = true) {i : Nat}
    {code : List Token} (notStray : (L.token i).isStray = false)
    (brace : (L.token (i + 1)).is .closeBrace = true) (start : f.start = L.stopBefore (i + 1))
    (empty : f.start = f.stop) (insertable : Insertable f.newCode code) :
    ∃ code' after', tokenize (f.apply s.text) = .ok (L.tokens.take (i + 1) ++ code' ++ after')
      ∧ f.Splices s.text (L.tokens.take (i + 1) ++ code' ++ after')
      ∧ Token.MovedBy (L.stopBefore (i + 1)) code code'
      ∧ Token.MovedBy f.newCode.length (L.tokens.drop (i + 1) ++ [L.final]) after' := by
  rw [← on.text] at closed ⊢
  obtain ⟨code', after', run, moved, moved'⟩ := L.insert_behind closed notStray brace insertable
  refine ⟨code', after', ?_, ?_, moved, moved'⟩
  · unfold Fix.apply
    rw [← empty, start]
    exact run
  · refine L.splices (Nat.le_of_eq start.symm) ?_ insertable (start ▸ moved) moved'
    rw [start]
    exact L.stopBefore_le_startAt (i + 1)

/-- **A member comes behind the last one,** and there is one comma between them. -/
theorem insertMember_inserts (on : s.On L) (silent : s.complaints = [])
    (closed : s.text.closesLiterals = true) {object : Tree} {members : List Tree}
    (inside : object ∈ s.tree.preorder) (form : object.form = .objectLiteral members)
    {snippet description : Text} {confidence : Confidence} (listed : snippet ∈ snippets)
    (h : insertMember s object members snippet confidence description = .ok f)
    (empty : f.start = f.stop) : InsertsCleanly s f := by
  obtain ⟨heard, lo, hi, quiet, placed⟩ := on.place_of_strict inside (by rw [form]; rfl)
  obtain ⟨_, j, _, stop, _, details⟩ := placed.details (by rw [form]; rfl)
  rw [form] at details
  unfold insertMember at h
  split at h
  · -- An object without members is replaced as a whole.
    have replaces := Source.replaces_of_replace h
    have wide := placed.wide (by rw [form]; rfl)
    rw [← replaces.start, ← replaces.stop, empty] at wide
    exact absurd wide (Nat.lt_irrefl _)
  · next last isLast =>
      obtain ⟨k, m, positive, lastStop, comma, brace, noisy⟩ := details last isLast
      obtain ⟨before, notStray⟩ := noisy (quiet silent)
      obtain ⟨place, isFound, found, notFound⟩ := commaEnd?_yields on positive comma brace
      obtain ⟨rfl, isBrace⟩ := brace.resolve_left (Nat.ne_of_gt before)
      dsimp only at h
      rw [stop, lastStop, isFound] at h
      cases place with
      | some place =>
          -- The comma is the token `k`, and the member goes behind it.
          obtain ⟨isComma, rfl, rfl⟩ := found place rfl
          obtain ⟨start, _, newCode⟩ := Source.eq_of_fix h
          obtain ⟨lead, trail, code, written, insertable⟩ := exists_behindComma
            (isBlank_lineIndent s last.info.start) listed
            ((s.textOf object).contains (.scalar '\n'))
          rw [written] at newCode
          rw [← newCode] at insertable
          obtain ⟨code', after', run, splices, moved, moved'⟩ := exists_fixed_behind on closed
            (Token.isStray_of_is isComma) isBrace start empty insertable
          refine ⟨_, run, splices, .member inside form isLast ?_ ?_ listed newCode ?_⟩
          · rw [lastStop, start]
            exact L.stopBefore_mono (Nat.le_succ k)
          · rw [start, stop]
            exact Nat.lt_of_le_of_lt (L.stopBefore_le_startAt _)
              (L.token_spec (Layout.lt_size_of_is isBrace)).2.2.1
          · rw [lastStop, start]
            refine Layout.oneComma_kept isComma moved moved' ?_
            rw [newCode, List.append_assoc, List.length_append]
            exact Nat.le_add_right _ _
      | none =>
          -- There is no comma, so the member brings its own.
          obtain rfl := notFound rfl before
          obtain ⟨i, rfl⟩ := Nat.exists_eq_succ_of_ne_zero (Nat.ne_of_gt positive)
          obtain ⟨start, _, newCode⟩ := Source.eq_of_fix h
          obtain ⟨lead, code, written, wide, insertable⟩ := exists_withComma
            (isBlank_lineIndent s last.info.start) listed
            ((s.textOf object).contains (.scalar '\n'))
          rw [written] at newCode
          rw [← newCode] at insertable
          obtain ⟨code', after', run, splices, moved, moved'⟩ := exists_fixed_behind on closed
            notStray isBrace start empty insertable
          refine ⟨_, run, splices, .member inside form isLast (Nat.le_of_eq (lastStop.trans start.symm))
            ?_ listed (newCode.trans (List.append_nil _).symm) ?_⟩
          · rw [start, stop]
            exact Nat.lt_of_le_of_lt (L.stopBefore_le_startAt _)
              (L.token_spec (Layout.lt_size_of_is isBrace)).2.2.1
          · rw [lastStop, start]
            refine Layout.oneComma_inserted ?_ ?_ ?_ moved moved' ?_
            · rfl
            · rfl
            · exact wide
            · rw [newCode, List.length_append]
              exact Nat.le_add_right _ _

/-- A call without arguments in an object ends with a parenthesis, in front of the brace of
the object. -/
theorem closing_in_object (on : s.On L) (silent : s.complaints = []) {object call : Tree}
    {members : List Tree} (inside : object ∈ s.tree.preorder)
    (form : object.form = .objectLiteral members) (below : call ∈ object.preorder)
    (isCall : callArguments? call = some []) :
    ∃ k m, k < m ∧ (L.token m).is .closeBrace = true ∧ call.info.stop = L.startAt k + 1
      ∧ ((L.token k).is .openParen = true ∨ (L.token k).is .closeParen = true) := by
  obtain ⟨callee, optional, callForm⟩ := form_of_callArguments? isCall
  obtain ⟨heard, lo, hi, quiet, placed⟩ := on.place_of_strict inside (by rw [form]; rfl)
  obtain ⟨i, j, _, _, parts, details⟩ := placed.parts_and_details (by rw [form]; rfl)
  rw [form] at parts details
  -- The call stands in one of the members, so there is a last one.
  have isBelow : ∃ part ∈ members, call ∈ part.preorder := by
    cases object with
    | mk span form' =>
        cases form
        rcases Node.mem_preorder_mk.mp below with rfl | isBelow
        · cases callForm
        · exact isBelow
  obtain ⟨part, isPart, isIn⟩ := isBelow
  have isLast := List.getLast?_eq_some_getLast (List.ne_nil_of_mem isPart)
  obtain ⟨_, m, _, _, _, brace, noisy⟩ := details _ isLast
  obtain ⟨rfl, isBrace⟩ := brace.resolve_left (Nat.ne_of_gt (noisy (quiet silent)).1)
  obtain ⟨_, _, _, upper, place⟩ := parts.of_mem_within Placed.le isPart
  obtain ⟨_, _, _, upper', place'⟩ := place.of_mem_preorder_within isIn
  obtain ⟨_, _, before, stop, _, callDetails⟩ := place'.parts_and_details (by rw [callForm]; rfl)
  rw [callForm] at callDetails
  obtain ⟨k, rfl, isParen⟩ := callDetails rfl
  have differs : k ≠ m := by
    rintro rfl
    unfold Token.is at isBrace isParen
    rw [beq_iff_eq] at isBrace
    rw [isBrace] at isParen
    rcases isParen with never | never <;> cases never
  refine ⟨k, m, by omega, isBrace, ?_, isParen⟩
  rw [stop]
  rcases isParen with isParen | isParen
  · exact (Layout.slice_of_is (c := .scalar '(') isParen rfl).1
  · exact (Layout.slice_of_is (c := .scalar ')') isParen rfl).1

/-- **An argument comes in front of the parenthesis** of a call in an object. -/
theorem argument_inserts (on : s.On L) (silent : s.complaints = []) {object call : Tree}
    {members : List Tree} (inside : object ∈ s.tree.preorder)
    (form : object.form = .objectLiteral members) (below : call ∈ object.preorder)
    (isCall : callArguments? call = some []) (closes : s.charAt (call.info.stop - 1) = .ok (.scalar ')'))
    {description : Text} {confidence : Confidence}
    (h : s.fix (call.info.stop - 1) (call.info.stop - 1) (inBraces overrideSnippet) confidence
      description = .ok f) : InsertsCleanly s f := by
  obtain ⟨k, m, later, isBrace, stop, isParen⟩ :=
    closing_in_object on silent inside form below isCall
  obtain ⟨start, stop', newCode⟩ := Source.eq_of_fix h
  rw [stop, Nat.add_sub_cancel] at closes start stop'
  have paren : (L.token k).is .closeParen = true := by
    refine isParen.resolve_left fun opens => ?_
    unfold Source.charAt at closes
    rw [← on.text, Layout.getElem?_of_is opens (c := .scalar '(') rfl] at closes
    cases closes
  obtain ⟨code, scans⟩ := overrideInBraces_scans
  have insertable : Insertable f.newCode code := by
    rw [newCode]
    exact ⟨scans.weaken, ⟨'{', rfl, by decide⟩, by decide⟩
  obtain ⟨code', after', run, moved, moved'⟩ := L.insert_front paren later isBrace insertable
  have applied : f.apply s.text
      = L.text.take (L.startAt k) ++ f.newCode ++ L.text.drop (L.startAt k) := by
    unfold Fix.apply
    rw [start, stop', on.text]
  rw [← applied] at run
  refine ⟨_, run, ?_, .argument (Node.mem_preorder_trans below inside) isCall ?_ newCode⟩
  · rw [← on.text]
    refine L.splices ?_ (Nat.le_of_eq start) insertable (start ▸ moved) moved'
    rw [start]
    exact L.stopBefore_le_startAt k
  · rw [start, stop]

/-! ## §4. The checks. -/

/-- A replacement of something that has a text is no insertion. -/
theorem not_empty_of_replaces {n : Tree} {newCode : Text} (replaces : f.Replaces n newCode)
    (wide : n.info.start < n.info.stop) : f.start ≠ f.stop := by
  rw [replaces.start, replaces.stop]
  exact Nat.ne_of_lt wide

theorem overrideFix?_inserts (on : s.On L) (silent : s.complaints = [])
    (closed : s.text.closesLiterals = true) {domain : Tree} {members : List Tree}
    (inside : domain ∈ s.tree.preorder) (form : domain.form = .objectLiteral members)
    {dns : Node.Property Span} (found : domain.findProperty? "dns" = some dns)
    (refuses : hasOverride s dns.value.unwrap = false)
    (h : overrideFix? s dns.value.unwrap = .ok (some f)) (empty : f.start = f.stop) :
    InsertsCleanly s f := by
  have isProperty := Node.isPropertyOf_of_findProperty? found
  have isProvider := (isProperty.trans inside).unwrap_value
  unfold overrideFix? at h
  split at h
  · cases h
  · next isCall =>
      obtain ⟨c, isChar, h⟩ := bind_eq_ok.mp h
      split at h
      · next closes =>
          obtain ⟨f', made, h⟩ := bind_eq_ok.mp h
          cases h
          exact argument_inserts on silent inside form isProperty.unwrap_value isCall
            (closes ▸ isChar) made
      · cases h
  · next argument others isCall =>
      have isArgument := unwrap_mem_of_argument isProvider isCall
      simp only at h
      split at h
      · cases h
      · next members isObject =>
          split at h
          · next override found =>
              obtain ⟨f', made, h⟩ := bind_eq_ok.mp h
              cases h
              have isOverride := (Node.isPropertyOf_of_findProperty? found).trans isArgument
              have wide := wide_override on refuses isCall isObject found isOverride.unwrap_value
              exact absurd empty (not_empty_of_replaces (Source.replaces_of_replace made)
                (on.place_of_value isOverride wide).1)
          · obtain ⟨f', made, h⟩ := bind_eq_ok.mp h
            cases h
            exact insertMember_inserts on silent closed isArgument
              (Node.objectMembers?_eq_some.mp isObject) (by decide) made empty

theorem checkDns_inserts (on : s.On L) (silent : s.complaints = [])
    (closed : s.text.closesLiterals = true) {domain : Tree} (inside : domain ∈ s.tree.preorder)
    {label : Text} {v : Violation} (h : checkDns s label domain = .ok (some v))
    (isFix : v.fix = some f) (empty : f.start = f.stop) : InsertsCleanly s f := by
  unfold checkDns at h
  split at h
  · next members name isObject _ =>
      have form := Node.objectMembers?_eq_some.mp isObject
      split at h
      · obtain ⟨f', made, h⟩ := bind_eq_ok.mp h
        obtain ⟨v', made', h⟩ := bind_eq_ok.mp h
        cases h
        obtain rfl : f' = f :=
          Option.some.inj ((Source.standsAt_of_violation made').fix_eq.symm.trans isFix)
        exact insertMember_inserts on silent closed inside form (by decide) made empty
      · next dns found =>
          simp only at h
          split at h
          · cases h
          · next refuses =>
              obtain ⟨fix, made, h⟩ := bind_eq_ok.mp h
              obtain ⟨v', made', h⟩ := bind_eq_ok.mp h
              cases h
              obtain rfl : fix = some f :=
                (Source.standsAt_of_violation made').fix_eq.symm.trans isFix
              exact overrideFix?_inserts on silent closed inside form found
                (Bool.eq_false_iff.mpr refuses) made empty
  · cases h

/-- A guard is replaced. -/
theorem checkGuard_replaces (on : s.On L) {test : Tree} (inside : test ∈ s.tree.preorder)
    {label : Text} {v : Violation} (h : checkGuard s test label = .ok (some v))
    (isFix : v.fix = some f) : f.start ≠ f.stop := by
  unfold checkGuard at h
  split at h
  · next op left right form =>
      obtain ⟨_, _, _, placed⟩ := on.placed_of_strict inside (by rw [form]; rfl)
      split at h
      · split at h
        · cases h
        · obtain ⟨f', made, h⟩ := bind_eq_ok.mp h
          obtain ⟨v', made', h⟩ := bind_eq_ok.mp h
          cases h
          obtain rfl : f' = f :=
            Option.some.inj ((Source.standsAt_of_violation made').fix_eq.symm.trans isFix)
          exact not_empty_of_replaces (Source.replaces_of_replace made)
            (placed.wide (by rw [form]; rfl))
      · cases h
  · cases h

/-- **Whatever the rule inserts comes cleanly between the tokens of the text.** -/
theorem detect_inserts (on : s.On L) (silent : s.complaints = [])
    (closed : s.text.closesLiterals = true) {found : List Violation} (h : detect s = .ok found)
    {v : Violation} (isFound : v ∈ found) (isFix : v.fix = some f) (empty : f.start = f.stop) :
    InsertsCleanly s f := by
  obtain ⟨r, isResource, reports, h, isReported⟩ := exists_of_reportedAll h isFound
  unfold checkResource at h
  split at h
  · cases h
    exact absurd isReported List.not_mem_nil
  · next property isProperty =>
      have inside := (Resource.isPropertyOf_of_findProperty?
        (Resource.mem_resources_of_mem_resourcesOf isResource) isProperty).unwrap_value
      simp only at h
      split at h
      · next test consequent alternate form =>
          obtain ⟨guard, isGuard, h⟩ := bind_eq_ok.mp h
          obtain ⟨branches, isOk, h⟩ := bind_eq_ok.mp h
          cases h
          obtain ⟨report, isReport, isSome⟩ := List.mem_filterMap.mp isReported
          obtain rfl : report = some v := isSome
          rcases List.mem_cons.mp isReport with rfl | isReport
          · have isTest := unwrap_mem_of_conditional inside form (List.mem_cons_self ..)
            exact absurd empty (checkGuard_replaces on isTest isGuard isFix)
          · obtain ⟨branch, isBranch, h⟩ := exists_of_mem_mapM isOk isReport
            exact checkDns_inserts on silent closed (mem_of_branch inside form isBranch) h isFix empty
      · obtain ⟨report, isOk, h⟩ := bind_eq_ok.mp h
        cases h
        obtain rfl := Option.mem_toList.mp isReported
        exact checkDns_inserts on silent closed inside isOk isFix empty

end DomainConfig

/-! ## §5. Spliced insertions. -/

open DomainConfig

/-- **Inserted members splice cleanly.**

The text with a zero-width fix of the rule applied to it can be cut into tokens: first those of
the text in front of the place, then those of the new code, then the others, all of them as they
were but for where they stand.  The fix either gives a call its only argument, or it appends a
member to an object; then there is one token between the last member and the new one, and it is
a comma. -/
theorem Rule.insertions_spliced {path : Path} {text : Text} {s : Source}
    (read : Source.ofText path text = .ok s) (silent : s.complaints = [])
    (closed : text.closesLiterals = true) :
    ∃ found, domainConfig.detect s = .ok found ∧ ∀ v ∈ found, ∀ f, v.fix = some f →
      f.start = f.stop → ∃ fixed, tokenize (f.apply text) = .ok fixed
        ∧ f.Splices text fixed ∧ Inserts s f fixed := by
  obtain ⟨L, on, rfl⟩ := Source.exists_layout read
  obtain ⟨found, isOk, _⟩ := DomainConfig.detect_reports on
  exact ⟨found, isOk, fun v isFound f isFix empty =>
    detect_inserts on silent closed isOk isFound isFix empty⟩

/-- A domain without a provider, and one whose provider allows nothing. -/
def bareDomains : Text :=
  "new sst.aws.Nextjs(\"A\", \x7b domain: \x7b name: \"a\" \x7d \x7d);\n"
    ++ "new sst.aws.Remix(\"B\", \x7b domain: \x7b name: \"b\", dns: sst.aws.dns() \x7d \x7d);\n"

/-- Both fixes are insertions. -/
theorem Rule.insertions_spliced_bareDomains :
    ∃ (s : Source) (found : List Violation), Source.ofText ⟨.here, []⟩ bareDomains = .ok s
      ∧ domainConfig.detect s = .ok found ∧ found.length = 2
      ∧ ∀ v ∈ found, ∃ f fixed, v.fix = some f ∧ f.start = f.stop
        ∧ tokenize (f.apply bareDomains) = .ok fixed ∧ f.Splices bareDomains fixed
        ∧ Inserts s f fixed := by
  have closed : bareDomains.closesLiterals = true := by decide +kernel
  have evaluated : (Source.ofText ⟨.here, []⟩ bareDomains).toOption.any (fun s =>
      s.complaints = [] && (domainConfig.detect s).toOption.any fun found =>
        found.length = 2 && found.all fun v => v.fix.any fun f => f.start = f.stop) = true := by
    decide +kernel
  obtain ⟨s, read, evaluated⟩ := exists_ok_of_any evaluated
  rw [Bool.and_eq_true, decide_eq_true_eq] at evaluated
  obtain ⟨silent, evaluated⟩ := evaluated
  obtain ⟨found, isOk, evaluated⟩ := exists_ok_of_any evaluated
  rw [Bool.and_eq_true, decide_eq_true_eq, List.all_eq_true] at evaluated
  obtain ⟨two, insertions⟩ := evaluated
  obtain ⟨found', isOk', spliced⟩ := Rule.insertions_spliced read silent closed
  obtain rfl : found' = found := Except.ok.inj (isOk'.symm.trans isOk)
  refine ⟨s, found', read, isOk, two, fun v isFound => ?_⟩
  have shown := insertions v isFound
  cases isFix : v.fix with
  | none =>
      rw [isFix] at shown
      cases shown
  | some f =>
      rw [isFix, Option.any_some, decide_eq_true_eq] at shown
      obtain ⟨fixed, run, splices, inserts⟩ := spliced v isFound f isFix shown
      exact ⟨f, fixed, rfl, shown, run, splices, inserts⟩

end StackLint
