/-
  StackLint.Proofs.Parse.Function
  ───────────────────────────────
  **FUNCTIONS LAY TREES.**

  The span of a parameter list is never the wrong way round, whether its
  parentheses are there or not.
-/
import StackLint.Parse.Function
import StackLint.Proofs.Parse.Access

namespace StackLint

namespace Parser

variable {L : Layout} {g : Grammar} {s s₀ : ParserState}

/-! ## §1. Up to an empty list of parameters. -/

/-- The place is not in front of the token `i`, and if only words stand between this and an
empty list of parameters, it is not behind the list. -/
structure Approaches (L : Layout) (i p : Nat) : Prop where
  le : i ≤ p
  near : ∀ k, L.EmptyList i k → p ≤ k + 1

namespace Approaches

variable {i p p' : Nat}

theorem here (L : Layout) (i : Nat) : Approaches L i i :=
  ⟨Nat.le_refl i, fun _ list => Nat.le_succ_of_le list.le⟩

/-- Words are in front of the list. -/
theorem lt_of_isWord (near : Approaches L i p) (isWord : (L.token p).isWord = true) {k : Nat}
    (list : L.EmptyList i k) : p < k := by
  refine Nat.lt_of_not_le fun behind => ?_
  have le := near.near k list
  rcases Nat.lt_or_eq_of_le behind with behind | rfl
  · obtain rfl : p = k + 1 := by omega
    have closes := list.closes
    rw [not_is_of_isWord isWord] at closes
    cases closes
  · have opens := list.opens
    rw [not_is_of_isWord isWord] at opens
    cases opens

theorem word (near : Approaches L i p) (isWord : (L.token p).isWord = true) :
    Approaches L i (p + 1) :=
  ⟨Nat.le_succ_of_le near.le, fun _ list =>
    Nat.succ_le_of_lt (Nat.lt_succ_of_lt (near.lt_of_isWord isWord list))⟩

/-- Behind another token there is no such list. -/
theorem other (near : Approaches L i p) (notWord : (L.token p).isWord = false)
    (notOpen : (L.token p).is .openParen = false) (notClose : (L.token p).is .closeParen = false)
    (le : p ≤ p') : Approaches L i p' := by
  refine ⟨Nat.le_trans near.le le, fun k list => absurd list ?_⟩
  rintro ⟨_, words, opens, closes⟩
  have behind := near.near k ‹_›
  rcases Nat.lt_trichotomy p k with before | rfl | after
  · rw [words p near.le before] at notWord
    cases notWord
  · rw [opens] at notOpen
    cases notOpen
  · obtain rfl : p = k + 1 := by omega
    rw [closes] at notClose
    cases notClose

/-- The list is at the first parenthesis. -/
theorem eq_of_opens (near : Approaches L i p) (opens : (L.token p).is .openParen = true) {k : Nat}
    (list : L.EmptyList i k) : p = k := by
  have behind := near.near k list
  rcases Nat.lt_trichotomy p k with before | same | after
  · rw [not_is_of_isWord (list.words p near.le before)] at opens
    cases opens
  · exact same
  · obtain rfl : p = k + 1 := by omega
    rw [not_is_of_is (q := .openParen) list.closes nofun] at opens
    cases opens

/-- A mark that is no parenthesis. -/
theorem mark (near : Approaches L i p) {q : Punct} (isMark : (L.token p).is q = true)
    (other : q ≠ .openParen ∧ q ≠ .closeParen) (le : p ≤ p') : Approaches L i p' := by
  refine near.other ?_ (not_is_of_is isMark other.1) (not_is_of_is isMark other.2) le
  refine Bool.eq_false_iff.mpr fun isWord => ?_
  rw [not_is_of_isWord isWord] at isMark
  cases isMark

/-- Where a token is accepted that is no parenthesis. -/
theorem accepts {test : Token → Bool} {found : Bool} {s' : ParserState}
    (near : Approaches L i s.position) (accepts : Accepts L s test found s')
    (noParen : ∀ t, test t = true → t.is .openParen = false ∧ t.is .closeParen = false) :
    Approaches L i s'.position := by
  cases found with
  | false => exact (accepts.no rfl).1 ▸ near
  | true =>
      obtain ⟨place, _, passed⟩ := accepts.yes rfl
      obtain ⟨notOpen, notClose⟩ := noParen _ passed
      rw [place]
      cases isWord : (L.token s.position).isWord with
      | true => exact near.word isWord
      | false => exact near.other isWord notOpen notClose (Nat.le_succ _)

theorem accept (near : Approaches L i s.position) (on : s.On L) {q : Punct}
    (other : q ≠ .openParen ∧ q ≠ .closeParen) :
    Ensures (discard (Parser.accept q)) s fun _ s' => Approaches L i s'.position :=
  (accept_spec on q).discard fun _ _ accepts => near.accepts accepts fun _ isMark =>
    ⟨not_is_of_is isMark other.1, not_is_of_is isMark other.2⟩

/-- In front of a list a function has a keyword, and maybe a word in front of this. -/
theorem skip_keyword {word : Text} {found : Bool} {s' : ParserState}
    (accepts : Accepts L s (·.isTheWord word) found s') :
    Approaches L s.position (s'.skip 1).position := by
  have place := accepts.reads.on.position_skip 1
  refine ⟨(accepts.reads.trans (.skip accepts.reads.on 1)).le, fun k list => ?_⟩
  have le := list.le
  cases found with
  | false =>
      obtain ⟨rfl, _⟩ := accepts.no rfl
      omega
  | true =>
      obtain ⟨same, _, isWord⟩ := accepts.yes rfl
      have less := (Approaches.here L s.position).lt_of_isWord (isWord_of_isTheWord isWord) list
      omega

theorem optionalName (near : Approaches L i s.position) (on : s.On L) :
    Ensures optionalName s fun _ s' => Approaches L i s'.position := by
  refine .bind_current (.ite (fun isWord => ?_) fun _ => .pure near)
  refine .bind (P := fun _ s' => Approaches L i s'.position) (.bind_advance (.pure ?_))
    fun _ _ near => .pure near
  rw [position_skip_one on (lt_size_of_isWord on isWord)]
  exact near.word (on.current ▸ isWord)

theorem skipTypeParameters (near : Approaches L i s.position) (on : s.On L) :
    Ensures skipTypeParameters s fun _ s' => Approaches L i s'.position := by
  refine .bind_current (.ite (fun isLt => ?_) fun _ => .pure near)
  rw [on.current] at isLt
  exact (skipAngles_passes s on).discard fun _ _ reads => near.mark isLt ⟨nofun, nofun⟩ reads.le

theorem skipWhile (near : Approaches L i s.position) (on : s.On L) {p : Token → Token → Bool}
    (words : ∀ t next, p t next = true → t.isWord = true) :
    Ensures (skipWhile p) s fun _ s' => Approaches L i s'.position := by
  refine .iterate (I := fun _ s' => s'.On L ∧ Approaches L i s'.position) ⟨on, near⟩ ?_
  rintro _ s₁ ⟨on, near⟩
  refine .bind_get (.ite (fun _ => .pure near) fun goesOn => .bind_skip (.pure ⟨on.skip 1, ?_⟩))
  rw [Bool.or_eq_true, not_or, Bool.not_eq_true', Bool.not_eq_false] at goesOn
  have isWord := words _ _ goesOn.2
  rw [position_skip_one on (lt_size_of_isWord on isWord)]
  exact near.word (on.current ▸ isWord)

/-- Behind a key. -/
theorem key {key : Option Tree} {s' : ParserState} (near : Approaches L i s.position) (on : s.On L)
    (lays : LaysKey L s key s') (reads : ReadsKey s key s') (isSome : key.isSome = true) :
    Approaches L i s'.position := by
  obtain ⟨notOpen, notClose⟩ := reads.noParen isSome
  rw [on.current] at notOpen notClose
  cases isWord : s.current.isWord with
  | false => exact near.other (on.current ▸ isWord) notOpen notClose (Nat.le_of_lt (lays.moved isSome))
  | true =>
      rw [reads.word isSome isWord, position_skip_one on (lt_size_of_isWord on isWord)]
      exact near.word (on.current ▸ isWord)

theorem memberModifiers (near : Approaches L i s.position) (on : s.On L) :
    Ensures memberModifiers s fun _ s' => Approaches L i s'.position := by
  have behind {s : ParserState} (near : Approaches L i s.position) (on : s.On L)
      {found : Bool × Accessor} : Ensures (do
        discard (Parser.accept .star)
        return found) s fun _ s' => Approaches L i s'.position :=
    (near.accept (q := .star) on ⟨nofun, nofun⟩).bind fun _ _ near => .pure near
  refine .bind_current (.bind_peek (.ite (fun modifies => ?_) fun _ => behind near on))
  have isWord : s.current.isWord = true := by
    refine Decidable.byContradiction fun notWord => modifies ?_
    have other (word : Text) : ¬ s.current.isTheWord word = true :=
      fun isWord => notWord (isWord_of_isTheWord isWord)
    rw [if_neg (other _), if_neg (other _), if_neg (other _), ite_self]
  refine .bind_skip (behind ?_ (on.skip 1))
  rw [position_skip_one on (lt_size_of_isWord on isWord)]
  exact near.word (on.current ▸ isWord)

end Approaches

/-! ## §2. Parameters. -/

theorem parameter_lays (sound : g.Sound L) : Lays L (parameter g) ([·]) := by
  intro s on
  refine (Laid.nothing (.refl on)).bind_pass (skipDecorators_passes sound) ?_
  intro _ s₁ laid
  refine laid.bind_pass (skipWhile_passes _) ?_
  intro _ s₂ skipped
  have start := Laid.nothing (.refl skipped.reads.on)
  refine .bind_current ?_
  rw [skipped.reads.on.start_current]
  refine start.bind_pass (accept_passes _) ?_
  intro rest s₃ laid
  refine laid.bind_lay sound.bindingTarget.lays ?_
  intro target s₄ laid
  refine laid.bind_pass (accept_passes _).discard ?_
  intro _ s₅ laid
  refine laid.bind_pass skipAnnotation_passes ?_
  intro _ s₆ laid
  refine laid.bind_lay (initializer_lays sound) ?_
  intro default s₇ laid
  -- The name may be missing, so the parameter may have no token at all.
  refine .close ?_
  exact .behind (.loose_opened laid rfl trivial) skipped.reads

/-- What is known behind a parameter list. -/
structure LaysParameters (L : Layout) (s : ParserState) (read : List Tree × Span)
    (s' : ParserState) : Prop where
  laid : Laid L s s' read.1
  fit : ParametersFit L read.1 (some read.2)
  moved : s.current.is .openParen = true → s.position < s'.position
  lists : ∀ i, Approaches L i s.position → L.Lists i read.1

theorem parameters_spec (sound : g.Sound L) (on : s.On L) :
    Ensures (parameters g) s (LaysParameters L s) := by
  refine .bind_current ?_
  rw [on.start_current]
  refine (expect_spec on .openParen).bind ?_
  rintro found s₁ ⟨reads, yes, no⟩
  refine .ite ?_ ?_
  · intro isFound
    obtain ⟨moved, _, opens⟩ := yes isFound
    -- In an empty list the loop ends in front of the closing parenthesis.
    let Empty (params : List Tree) (place : Nat) : Prop :=
      ∀ i k, Approaches L i s.position → L.EmptyList i k → params = [] ∧ place = k + 1
    refine .bind (P := fun params s' => Laid L s₁ s' params ∧ ∃ place, Empty params.reverse place)
      (.iterate (I := fun params s' => Laid L s₁ s' params.reverse ∧ Empty params s'.position) ?_ ?_) ?_
    · refine ⟨.nothing (.refl reads.on), fun i k near list => ⟨rfl, ?_⟩⟩
      rw [moved, near.eq_of_opens opens list]
    · rintro params s₂ ⟨laid, empty⟩
      refine .bind_current ?_
      refine .ite (fun _ => .pure ⟨laid, _, params.reverse_reverse.symm ▸ empty⟩) fun goesOn => ?_
      have notEmpty (params : List Tree) (place : Nat) : Empty params place := by
        intro i k near list
        obtain ⟨_, atCloser⟩ := empty i k near list
        rw [laid.reads.on.current, atCloser, list.closes, Bool.or_true] at goesOn
        exact absurd rfl goesOn
      refine (parameter_lays sound s₂ laid.reads.on).bind ?_
      intro param s₃ next
      refine (accept_passes _ s₃ next.reads.on).bind ?_
      intro found s₄ reads
      have all := (laid.snoc next).pass reads
      exact .ite (fun _ => .pure ⟨all, notEmpty _ _⟩) fun _ => .pure ⟨all, 0, notEmpty _ _⟩
    rintro params s₂ ⟨laid, _, empty⟩
    refine laid.bind_pass (expect_passes _).discard ?_
    intro _ s₃ laid
    have le := laid.reads.le
    -- The opening parenthesis is a token of the span.
    refine .bind_lastStop (.pure ⟨laid.behind reads, fun _ => ?_, fun _ => by omega, ?_⟩)
    · rw [laid.reads.on.lastStop]
      have inside := laid.reads.on.inside
      exact ⟨.tokens (by omega) inside, L.startAt_lt_stopBefore (by omega) inside⟩
    · exact fun i near k list => List.reverse_eq_nil_iff.mp (empty i k near list).1
  · intro notFound
    obtain ⟨_, fails, _⟩ := no (Bool.eq_false_iff.mpr notFound)
    -- Without parentheses there are no parameters.
    refine .pure ⟨.nothing reads, ?_, ?_, fun _ _ _ _ => rfl⟩
    · exact fun some => absurd rfl some
    · intro opens
      rw [on.current, fails] at opens
      cases opens

/-! ## §2. Functions. -/

theorem optionalName_lays : Lays L optionalName Option.toList := by
  intro s on
  refine .bind_current ?_
  refine .ite ?_ fun _ => .pure (.nothing (.refl on))
  intro isWord
  refine (identifier_spec on isWord).bind ?_
  intro name s₁ taken
  exact .pure taken.laid

/-- A function of two kinds. -/
theorem function_takes (sound : g.Sound L) (declaration : Bool) :
    Takes L (function g declaration) := by
  intro s on more
  refine .bind_current ?_
  rw [on.start_current]
  refine (acceptWord_spec on _).bind ?_
  intro isAsync s₁ accepts
  have moved := accepts.lt_position_skip more
  have reads := accepts.reads.trans (.skip accepts.reads.on 1)
  have near := Approaches.skip_keyword accepts
  refine .bind_skip ?_
  have stars := near.accept (q := .star) reads.on ⟨nofun, nofun⟩
  refine (((accept_passes _).discard _ reads.on).and stars).bind ?_
  rintro _ s₂ ⟨reads₂, near⟩
  have laid := (Begun.of_reads reads moved).pass reads₂
  refine ((optionalName_lays s₂ laid.reads.on).and (near.optionalName laid.reads.on)).bind ?_
  rintro name s₃ ⟨laysName, near⟩
  have laid := laid.append laysName
  refine ((skipTypeParameters_passes s₃ laid.reads.on).and
    (near.skipTypeParameters laid.reads.on)).bind ?_
  rintro _ s₄ ⟨reads₄, near⟩
  have laid := laid.pass reads₄
  refine (parameters_spec sound laid.reads.on).bind ?_
  rintro ⟨params, span⟩ s₅ parameters
  have fit := And.intro parameters.fit (parameters.lists _ near)
  refine (laid.append parameters.laid).bind_pass skipAnnotation_passes ?_
  intro _ s₆ laid
  refine laid.bind_lay (optionalBlock_lays sound) ?_
  intro body s₇ laid
  -- Where there is no body a semicolon may follow.
  refine .ite_then (P := fun s' => Begun L _ s' _) ?_ (fun _ => laid) ?_
  · intro _
    exact .mono (accept_passes _ |>.discard s₇ laid.reads.on) fun _ _ reads => laid.pass reads
  · intro s₈ laid
    cases declaration with
    | true => exact laid.close fit
    | false => exact laid.close fit

/-- How an arrow function begins that does not begin with a word. -/
theorem begins_of_arrowAhead (ahead : Lookahead.arrowAhead s.ahead = true)
    (notWord : s.current.isWord = false) :
    (s.current.is .lt = true ∧ (Lookahead.angleWidth? 0 0 s.ahead).isSome = true)
      ∨ (s.current.is .lt = false ∧ s.current.is .openParen = true) := by
  unfold ParserState.current at *
  -- Without the word `async` in front, the plain lookahead decides.
  have plain : Lookahead.plainArrowAhead s.ahead = true := by
    unfold Lookahead.arrowAhead at ahead
    split at ahead
    · next t next rest same =>
        have notAsync : t.isTheWord "async" = false := by
          rw [same] at notWord
          unfold Token.isWord at notWord
          unfold Token.isTheWord
          refine beq_false_of_ne fun isAsync => ?_
          rw [List.head?_cons, Option.getD_some, isAsync] at notWord
          cases notWord
        rw [notAsync, Bool.false_and, Bool.false_and, if_neg Bool.false_ne_true] at ahead
        rw [same]
        exact ahead
    · exact ahead
  cases same : s.ahead with
  | nil =>
      rw [same] at plain
      cases plain
  | cons t rest =>
      rw [same] at plain notWord
      rw [List.head?_cons, Option.getD_some] at *
      simp only [Lookahead.plainArrowAhead] at plain
      rw [notWord, if_neg Bool.false_ne_true] at plain
      cases isLt : t.is .lt with
      | true =>
          left
          rw [isLt, if_pos rfl] at plain
          refine ⟨rfl, ?_⟩
          cases width : Lookahead.angleWidth? 0 0 (t :: rest) with
          | none =>
              rw [width] at plain
              cases plain
          | some width => rfl
      | false =>
          right
          rw [isLt, if_neg Bool.false_ne_true, Bool.and_eq_true] at plain
          exact ⟨rfl, plain.1⟩

/-- What is known behind the parameters of an arrow function. -/
structure LaysArrowParameters (L : Layout) (s : ParserState) (read : List Tree × Option Span)
    (s' : ParserState) : Prop where
  laid : Laid L s s' read.1
  fit : ParametersFit L read.1 read.2
  moved : Lookahead.arrowAhead s.ahead = true → s.position < s'.position
  /-- Behind a lone name there is an arrow, and no list. -/
  lists : (s.current.isWord = true → (L.token (s.position + 1)).is .arrow = true) →
    ∀ i, Approaches L i s.position → L.Lists i read.1

/-- A lone name is a parameter without parentheses around it. -/
theorem arrowParameters_name (on : s.On L) (isWord : s.current.isWord = true) :
    Ensures (do
      let name ← identifier
      return ([.mk name.info (.parameter name none false)], none)) s
      (LaysArrowParameters L s) := by
  have more := lt_size_of_isWord on isWord
  have moved := position_skip_one on more
  have name : Taken L s (s.skip 1) (leaf s.current (.identifier s.current.lexeme.value)) :=
    .leaf on more rfl (.inr (.inr (lexeme_of_isWord on isWord)))
  have param : Taken L s (s.skip 1) (.mk ⟨L.startAt s.position, (s.skip 1).lastStop⟩
      (.parameter (leaf s.current (.identifier s.current.lexeme.value)) none false)) :=
    .opened name.laid (by omega) trivial
  rw [← on.start_current, ← stop_current on more] at param
  refine .bind (P := fun name s' =>
    name = leaf s.current (.identifier s.current.lexeme.value) ∧ s' = s.skip 1)
    (.bind_advance (.pure ⟨rfl, rfl⟩)) ?_
  rintro _ _ ⟨rfl, rfl⟩
  refine .pure ⟨param.laid, ⟨_, rfl, ?_⟩, fun _ => param.moved, ?_⟩
  · show s.current.start < s.current.stop
    rw [on.start_current, stop_current on more, (on.skip 1).lastStop]
    exact L.startAt_lt_stopBefore (by omega) (on.skip 1).inside
  · intro arrow i near k list
    have before := near.lt_of_isWord (on.current ▸ isWord) list
    have isArrow := arrow isWord
    rcases Nat.lt_or_eq_of_le (Nat.succ_le_of_lt before) with before | isList
    · rw [not_is_of_isWord (list.words _ (Nat.le_succ_of_le near.le) before)] at isArrow
      cases isArrow
    · have opens := list.opens
      rw [← isList, not_is_of_is (p := .arrow) (q := .openParen) isArrow nofun] at opens
      cases opens

theorem arrowParameters_spec (sound : g.Sound L) (on : s.On L) :
    Ensures (arrowParameters g) s (LaysArrowParameters L s) := by
  refine .bind_current ?_
  refine .ite (arrowParameters_name on) fun notWord => ?_
  -- Type parameters take a token when the lookahead saw their end.
  refine .bind (P := fun _ s' => Reads L s s'
    ∧ (s.current.is .lt = true → (Lookahead.angleWidth? 0 0 s.ahead).isSome = true →
      s.position < s'.position)
    ∧ (s.current.is .lt = false → s' = s)
    ∧ ∀ i, Approaches L i s.position → Approaches L i s'.position) ?_ ?_
  · refine .bind_current ?_
    refine .ite ?_ ?_
    · intro isLt
      refine (skipAngles_spec on).discard ?_
      rintro found s₁ ⟨reads, same, moved⟩
      refine ⟨reads, fun _ isAngle => moved (same.trans isAngle), ?_, fun i near => ?_⟩
      · intro notLt
        rw [isLt] at notLt
        cases notLt
      · exact near.mark (q := .lt) (on.current ▸ isLt) ⟨nofun, nofun⟩ reads.le
    · intro notLt
      exact .pure ⟨.refl on, fun isLt => absurd isLt notLt, fun _ => rfl, fun _ near => near⟩
  rintro _ s₁ ⟨reads, angles, same, nears⟩
  refine (parameters_spec sound reads.on).bind ?_
  rintro ⟨params, span⟩ s₂ parameters
  refine (skipAnnotation_passes s₂ parameters.laid.reads.on).bind ?_
  intro _ s₃ reads₃
  refine .pure ⟨(parameters.laid.behind reads).pass reads₃, parameters.fit, ?_,
    fun _ i near => parameters.lists i (nears i near)⟩
  intro ahead
  have le := parameters.laid.reads.le
  have le₃ := reads₃.le
  -- The function begins with type parameters or with a parenthesis: either is a token.
  rcases begins_of_arrowAhead ahead (Bool.eq_false_iff.mpr notWord) with
    ⟨isLt, isAngle⟩ | ⟨notLt, opens⟩
  · have moved := angles isLt isAngle
    omega
  · obtain rfl := same notLt
    have moved := parameters.moved opens
    omega

theorem arrowBody_builds (sound : g.Sound L) : Builds L (arrowBody g) := by
  intro s on
  refine .bind_current ?_
  exact .ite (fun _ => block_builds sound s on) fun _ => sound.assignment s on

/-- Behind a name that begins an arrow function there is an arrow. -/
theorem isArrow_of_plainArrowAhead {t : Token} {rest : List Token}
    (ahead : Lookahead.plainArrowAhead (t :: rest) = true) (isWord : t.isWord = true) :
    ∃ arrow ∈ rest.head?, arrow.is .arrow = true := by
  simp only [Lookahead.plainArrowAhead] at ahead
  rw [if_pos isWord] at ahead
  cases rest with
  | nil => cases ahead
  | cons arrow others => exact ⟨arrow, rfl, (Bool.and_eq_true_iff.mp ahead).1⟩

/-- The word `async` and a lone name do not come in front of an arrow one by one. -/
theorem peek_isArrow (ahead : Lookahead.arrowAhead s.ahead = true)
    (isWord : s.current.isWord = true)
    (notAsync : (s.current.isTheWord "async" && !(s.peek 1).is .arrow) = false) :
    (s.peek 1).is .arrow = true := by
  unfold ParserState.current ParserState.peek at *
  cases same : s.ahead with
  | nil =>
      rw [same] at ahead
      cases ahead
  | cons t tokens =>
      rw [same] at ahead isWord notAsync
      have plain (ahead : Lookahead.plainArrowAhead (t :: tokens) = true) :
          ((t :: tokens)[1]?.getD s.final).is .arrow = true := by
        obtain ⟨arrow, isHead, isArrow⟩ := isArrow_of_plainArrowAhead ahead isWord
        rw [List.getElem?_cons_succ, ← List.head?_eq_getElem?, Option.mem_def.mp isHead]
        exact isArrow
      cases tokens with
      | nil => exact plain ahead
      | cons next rest =>
          rw [Lookahead.arrowAhead] at ahead
          split at ahead
          · next isAsync =>
              rw [Bool.and_eq_true, Bool.and_eq_true] at isAsync
              have isAsync : t.isTheWord "async" = true := isAsync.1.1
              rw [List.head?_cons, Option.getD_some, isAsync, Bool.true_and,
                Bool.not_eq_false'] at notAsync
              exact notAsync
          · exact plain ahead

/-- Behind the word `async` it is the same. -/
theorem peek_skip_isArrow (ahead : Lookahead.arrowAhead s.ahead = true)
    (isAsync : (s.current.isTheWord "async" && !(s.peek 1).is .arrow) = true)
    (isWord : (s.skip 1).current.isWord = true) : ((s.skip 1).peek 1).is .arrow = true := by
  rw [Bool.and_eq_true, Bool.not_eq_true'] at isAsync
  obtain ⟨isAsync, notArrow⟩ := isAsync
  unfold ParserState.current ParserState.peek ParserState.skip at *
  cases same : s.ahead with
  | nil =>
      rw [same] at ahead
      cases ahead
  | cons t tokens =>
      rw [same] at ahead isAsync notArrow isWord
      have plain (ahead : Lookahead.plainArrowAhead (t :: tokens) = true) : False := by
        obtain ⟨arrow, isHead, isArrow⟩ :=
          isArrow_of_plainArrowAhead ahead (isWord_of_isTheWord isAsync)
        rw [List.getElem?_cons_succ, ← List.head?_eq_getElem?, Option.mem_def.mp isHead,
          Option.getD_some, isArrow] at notArrow
        cases notArrow
      cases tokens with
      | nil => exact (plain ahead).elim
      | cons next rest =>
          rw [Lookahead.arrowAhead] at ahead
          split at ahead
          · obtain ⟨arrow, isHead, isArrow⟩ := isArrow_of_plainArrowAhead ahead isWord
            show ((next :: rest)[1]?.getD s.final).is .arrow = true
            rw [List.getElem?_cons_succ, ← List.head?_eq_getElem?, Option.mem_def.mp isHead]
            exact isArrow
          · exact (plain ahead).elim

/-- An arrow function that was seen ahead. -/
theorem arrowFunction_spec (sound : g.Sound L) (on : s.On L)
    (ahead : Lookahead.arrowAhead s.ahead = true) :
    Ensures (arrowFunction g) s fun tree s' => Taken L s s' tree := by
  refine .bind_current ?_
  refine .bind_current ?_
  refine .bind_peek ?_
  rw [on.start_current]
  refine .ite_then (P := fun s' => Reads L s s' ∧ (s' = s ∨ s.position < s'.position)
    ∧ Approaches L s.position s'.position
    ∧ (s'.current.isWord = true → (s'.peek 1).is .arrow = true)) ?_ ?_ ?_
  · intro isAsync
    have isWord := (Bool.and_eq_true_iff.mp isAsync).1
    have moved := position_skip_one on (on.lt_size (isEnd_of_isTheWord isWord))
    refine .modify ⟨.skip on 1, .inr (by omega), ?_, peek_skip_isArrow ahead isAsync⟩
    rw [moved]
    exact (Approaches.here L s.position).word (on.current ▸ isWord_of_isTheWord isWord)
  · intro notAsync
    exact ⟨.refl on, .inl rfl, .here L s.position,
      fun isWord => peek_isArrow ahead isWord (Bool.eq_false_iff.mpr notAsync)⟩
  rintro s₁ ⟨reads, place, near, isArrow⟩
  rw [reads.on.peek] at isArrow
  refine (arrowParameters_spec sound reads.on).bind ?_
  rintro ⟨params, span⟩ s₂ parameters
  -- Either `async` was a token, or the parameters have one.
  have moved : s.position < s₂.position := by
    have le := parameters.laid.reads.le
    rcases place with rfl | moved
    · exact parameters.moved ahead
    · omega
  have laid := parameters.laid.behind reads
  refine (expect_passes _ |>.discard s₂ laid.reads.on).bind ?_
  intro _ s₃ reads₃
  refine (arrowBody_builds sound s₃ reads₃.on).bind ?_
  intro body s₄ built
  have rest := built.laid.behind reads₃
  have le := rest.reads.le
  exact .close (.opened (laid.append rest) (by omega)
    ⟨parameters.fit, parameters.lists isArrow _ near⟩)

/-- A method behind its key. -/
theorem methodRest_spec {key : Tree} (sound : g.Sound L) (begun : Begun L s₀ s [key])
    (near : Approaches L s₀.position s.position) (accessor : Accessor) (isAsync : Bool) :
    Ensures (methodRest g (L.startAt s₀.position) key accessor isAsync) s fun tree s' =>
      Taken L s₀ s' tree ∧ tree.info.stop = s'.lastStop := by
  refine ((skipTypeParameters_passes s begun.reads.on).and
    (near.skipTypeParameters begun.reads.on)).bind ?_
  rintro _ s₁ ⟨reads₁, near⟩
  have begun := begun.pass reads₁
  refine (parameters_spec sound begun.reads.on).bind ?_
  rintro ⟨params, span⟩ s₂ parameters
  refine (begun.append parameters.laid).bind_pass skipAnnotation_passes ?_
  intro _ s₃ begun
  refine begun.bind_lay (optionalBlock_lays sound) ?_
  intro body s₄ begun
  exact .close ⟨.opened begun.toLaid begun.moved ⟨parameters.fit, parameters.lists _ near⟩, rfl⟩

end Parser

end StackLint
