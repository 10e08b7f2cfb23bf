/-
  StackLint.Proofs.Print.Consumes
  ───────────────────────────────
  **FROM SOME LEXEMES TO OTHERS.**

  `Parser.Consumes total depth before p after P` says that the parser `p`, in every
  state in which the lexemes `before` come next, ends with a value that satisfies `P`,
  in a state in which the lexemes `after` come next, and complains about nothing.
  There is one rule for each way to build a parser; a loop is run round by round.
-/
import StackLint.Parse.Program

namespace StackLint

/-! ## §1. States. -/

/-- The given lexemes come next, and there have been no complaints.  There are `total`
lexemes in all, and `depth` constructs are open.  No line ends in front of an arrow. -/
structure ParserState.Sees (total depth : Nat) (ls : List Lexeme) (s : ParserState) : Prop where
  ahead : s.ahead.map Token.lexeme = ls
  arrows : ∀ t ∈ s.ahead, t.lexeme = .punct .arrow → t.newlineBefore = false
  final : s.final.lexeme = .endOfText
  isTotal : s.total = total
  position : s.position + ls.length = total
  complaints : s.complaints = []
  noIn : s.noIn = false
  depth : s.depth = depth

/-- The lexeme that comes first. -/
def firstOf (ls : List Lexeme) : Lexeme :=
  ls.head?.getD .endOfText

@[simp] theorem firstOf_cons (l : Lexeme) (ls : List Lexeme) : firstOf (l :: ls) = l := rfl

theorem firstOf_ne_punct {p q : Punct} (other : p ≠ q) {ls : List Lexeme} :
    firstOf (.punct p :: ls) ≠ .punct q :=
  fun same => other (Lexeme.punct.inj same)

/-- The token shows the lexeme; no line ends in front of it if that is an arrow. -/
structure Token.Shows (l : Lexeme) (t : Token) : Prop where
  lexeme : t.lexeme = l
  arrow : l = .punct .arrow → t.newlineBefore = false

theorem Token.Shows.eq {l : Lexeme} {t : Token} (shows : t.Shows l) :
    t = ⟨l, t.start, t.stop, t.newlineBefore⟩ := by
  rw [← shows.lexeme]

theorem Token.Shows.eq_arrow {t : Token} (shows : t.Shows (.punct .arrow)) :
    t = ⟨.punct .arrow, t.start, t.stop, false⟩ := by
  rw [← shows.lexeme, ← shows.arrow rfl]

namespace Token

variable {l : Lexeme} {p : Punct} {start stop : Nat} {newline : Bool}

theorem is_self : Token.is ⟨.punct p, start, stop, newline⟩ p = true :=
  beq_self_eq_true _

theorem is_eq_false (other : l ≠ .punct p) : Token.is ⟨l, start, stop, newline⟩ p = false :=
  beq_eq_false_iff_ne.mpr other

theorem isOneOf_eq_false {ps : List Punct} (other : ∀ p ∈ ps, l ≠ .punct p) :
    Token.isOneOf ⟨l, start, stop, newline⟩ ps = false := by
  unfold Token.isOneOf
  split
  · next p isPunct =>
      refine Bool.eq_false_iff.mpr fun listed => ?_
      exact other p (List.contains_iff_mem.mp listed) isPunct
  · rfl

end Token

namespace ParserState.Sees

variable {total depth : Nat} {l : Lexeme} {ls : List Lexeme} {s : ParserState}

theorem peek (sees : s.Sees total depth ls) (count : Nat) :
    (s.peek count).Shows ((ls[count]?).getD .endOfText) := by
  unfold ParserState.peek
  rw [← sees.ahead, List.getElem?_map]
  cases found : s.ahead[count]? with
  | none => exact ⟨sees.final, nofun⟩
  | some t => exact ⟨rfl, sees.arrows t (List.mem_of_getElem? found)⟩

theorem current (sees : s.Sees total depth ls) : s.current.Shows (firstOf ls) := by
  have first := sees.peek 0
  unfold ParserState.peek at first
  unfold ParserState.current firstOf
  rw [List.head?_eq_getElem?, List.head?_eq_getElem?]
  exact first

theorem skip (sees : s.Sees total depth (l :: ls)) : (s.skip 1).Sees total depth ls := by
  obtain ⟨t, rest, isAhead, _, others⟩ := List.map_eq_cons_iff.mp sees.ahead
  have position := sees.position
  rw [List.length_cons] at position
  unfold ParserState.skip
  rw [isAhead]
  refine ⟨others, ?_, sees.final, sees.isTotal, ?_, sees.complaints, sees.noIn, sees.depth⟩
  · intro u inside
    refine sees.arrows u ?_
    rw [isAhead]
    exact List.mem_cons_of_mem _ inside
  · show s.position + 1 + ls.length = total
    omega

end ParserState.Sees

namespace Parser

variable {α β : Type} {total depth : Nat} {l : Lexeme} {ls before between after : List Lexeme}

/-! ## §2. Consuming. -/

/-- Where the lexemes `before` come next, the parser ends with a value that satisfies
`P`, and then the lexemes `after` come next. -/
def Consumes (total depth : Nat) (before : List Lexeme) (p : Parser α) (after : List Lexeme)
    (P : α → Prop) : Prop :=
  ∀ s, s.Sees total depth before →
    ∃ a s', p.run s = .ok a s' ∧ s'.Sees total depth after ∧ P a

namespace Consumes

variable {P : α → Prop} {Q : β → Prop}

theorem pure {a : α} (holds : P a) : Consumes total depth ls (pure a) ls P :=
  fun s sees => ⟨a, s, rfl, sees, holds⟩

theorem mono {P' : α → Prop} {p : Parser α} (h : Consumes total depth before p after P)
    (weaker : ∀ a, P a → P' a) : Consumes total depth before p after P' := by
  intro s sees
  obtain ⟨a, s', run, sees', holds⟩ := h s sees
  exact ⟨a, s', run, sees', weaker a holds⟩

/-- **One parser after another.** -/
theorem bind {p : Parser α} {k : α → Parser β} (first : Consumes total depth before p between P)
    (next : ∀ a, P a → Consumes total depth between (k a) after Q) :
    Consumes total depth before (p >>= k) after Q := by
  intro s sees
  obtain ⟨a, s', run, sees', holds⟩ := first s sees
  obtain ⟨b, s'', run', sees'', holds'⟩ := next a holds s' sees'
  refine ⟨b, s'', ?_, sees'', holds'⟩
  rw [EStateM.run_bind, run]
  exact run'

/-- What is read off the state does not change it. -/
theorem look {p : Parser α} (value : ParserState → α) (stays : ∀ s, p.run s = .ok (value s) s)
    {k : α → Parser β}
    (next : ∀ s, s.Sees total depth before → Consumes total depth before (k (value s)) after Q) :
    Consumes total depth before (p >>= k) after Q := by
  intro s sees
  obtain ⟨b, s', run, sees', holds⟩ := next s sees s sees
  refine ⟨b, s', ?_, sees', holds⟩
  rw [EStateM.run_bind, stays]
  exact run

theorem bind_get {k : ParserState → Parser β}
    (next : ∀ s, s.Sees total depth before → Consumes total depth before (k s) after Q) :
    Consumes total depth before (MonadState.get >>= k) after Q :=
  .look id (fun _ => rfl) next

theorem bind_current {k : Token → Parser β}
    (next : ∀ start stop newline,
      Consumes total depth before (k ⟨firstOf before, start, stop, newline⟩) after Q) :
    Consumes total depth before (current >>= k) after Q :=
  .look ParserState.current (fun _ => rfl) fun _ sees => by
    rw [sees.current.eq]
    exact next _ _ _

theorem bind_peek {count : Nat} {k : Token → Parser β}
    (next : ∀ start stop newline, Consumes total depth before
      (k ⟨(before[count]?).getD .endOfText, start, stop, newline⟩) after Q) :
    Consumes total depth before (peek count >>= k) after Q :=
  .look (fun s => s.peek count) (fun _ => rfl) fun _ sees => by
    rw [(sees.peek count).eq]
    exact next _ _ _

theorem bind_position {k : Nat → Parser β}
    (next : ∀ n, n + before.length = total → Consumes total depth before (k n) after Q) :
    Consumes total depth before (position >>= k) after Q :=
  .look ParserState.position (fun _ => rfl) fun s sees => next s.position sees.position

theorem skip : Consumes total depth (l :: ls) (skip 1) ls fun _ => True :=
  fun s sees => ⟨(), s.skip 1, rfl, sees.skip, trivial⟩

theorem bind_skip {k : Unit → Parser β} (next : Consumes total depth ls (k ()) after Q) :
    Consumes total depth (l :: ls) (Parser.skip 1 >>= k) after Q :=
  skip.bind fun _ _ => next

theorem bind_advance {k : Token → Parser β}
    (next : ∀ start stop newline, Consumes total depth ls (k ⟨l, start, stop, newline⟩) after Q) :
    Consumes total depth (l :: ls) (advance >>= k) after Q := by
  have first : Consumes total depth (l :: ls) advance ls (Token.Shows l) :=
    fun s sees => ⟨s.current, s.skip 1, rfl, sees.skip, sees.current⟩
  refine first.bind fun t shows => ?_
  rw [shows.eq]
  exact next _ _ _

/-! ## §3. Punctuators. -/

theorem acceptOneOf_yes {p : Punct} {ps : List Punct} (listed : p ∈ ps) :
    Consumes total depth (.punct p :: ls) (acceptOneOf ps) ls (· = true) := by
  refine .bind_current fun start stop newline => ?_
  have found : Token.isOneOf ⟨.punct p, start, stop, newline⟩ ps = true :=
    List.contains_iff_mem.mpr listed
  rw [firstOf_cons, found, if_pos rfl]
  exact .bind_skip (.pure rfl)

theorem acceptOneOf_no {ps : List Punct} (other : ∀ p ∈ ps, firstOf ls ≠ .punct p) :
    Consumes total depth ls (acceptOneOf ps) ls (· = false) := by
  refine .bind_current fun start stop newline => ?_
  rw [Token.isOneOf_eq_false other, if_neg Bool.false_ne_true]
  exact .pure rfl

theorem bind_accept {p : Punct} {k : Bool → Parser β}
    (next : Consumes total depth ls (k true) after Q) :
    Consumes total depth (.punct p :: ls) (accept p >>= k) after Q :=
  (acceptOneOf_yes (List.mem_singleton_self p)).bind fun _ found => by
    rw [found]
    exact next

/-- Another lexeme comes next. -/
theorem bind_accept_other {p : Punct} {k : Bool → Parser β} (other : firstOf before ≠ .punct p)
    (next : Consumes total depth before (k false) after Q) :
    Consumes total depth before (accept p >>= k) after Q :=
  (acceptOneOf_no (List.forall_mem_singleton.mpr other)).bind fun _ notFound => by
    rw [notFound]
    exact next

theorem map {p : Parser α} {f : α → β} (h : Consumes total depth before p after fun a => Q (f a)) :
    Consumes total depth before (f <$> p) after Q := by
  rw [← bind_pure_comp]
  exact h.bind fun _ holds => .pure holds

theorem discard {p : Parser α} (h : Consumes total depth before p after P) :
    Consumes total depth before (discard p) after fun _ => True := by
  unfold Functor.discard
  exact Consumes.map (h.mono fun _ _ => trivial)

theorem bind_discard_accept_other {p : Punct} {k : Unit → Parser β}
    (other : firstOf before ≠ .punct p) (next : Consumes total depth before (k ()) after Q) :
    Consumes total depth before (Functor.discard (accept p) >>= k) after Q :=
  (acceptOneOf_no (List.forall_mem_singleton.mpr other)).discard.bind fun _ _ => next

theorem bind_discard_accept {p : Punct} {k : Unit → Parser β}
    (next : Consumes total depth ls (k ()) after Q) :
    Consumes total depth (.punct p :: ls) (Functor.discard (accept p) >>= k) after Q :=
  (acceptOneOf_yes (List.mem_singleton_self p)).discard.bind fun _ _ => next

/-- The punctuator that is expected comes next. -/
theorem expect {p : Punct} : Consumes total depth (.punct p :: ls) (expect p) ls (· = true) := by
  refine .bind_accept ?_
  exact .pure rfl

theorem bind_expect {p : Punct} {k : Unit → Parser β}
    (next : Consumes total depth ls (k ()) after Q) :
    Consumes total depth (.punct p :: ls) (Functor.discard (Parser.expect p) >>= k) after Q :=
  expect.discard.bind fun _ _ => next

/-! ## §4. Nodes. -/

theorem close {start : Nat} {form : Form Tree} {P : Tree → Prop}
    (holds : ∀ span, P (.mk span form)) : Consumes total depth ls (close start form) ls P :=
  fun s sees => ⟨.mk ⟨start, s.lastStop⟩ form, s, rfl, sees, holds _⟩

theorem bind_close {start : Nat} {form : Form Tree} {k : Tree → Parser β}
    (next : ∀ span, Consumes total depth before (k (.mk span form)) after Q) :
    Consumes total depth before (Parser.close start form >>= k) after Q :=
  .look (fun s => (.mk ⟨start, s.lastStop⟩ form : Tree)) (fun _ => rfl) fun _ _ => next _

/-- One level deeper, if there is a level left. -/
theorem nested {parse : Parser Tree} {P : Tree → Prop} (shallow : depth < maxNesting)
    (inner : Consumes total (depth + 1) before parse after P) :
    Consumes total depth before (Parser.nested parse) after P := by
  intro s sees
  have atDepth := sees.depth
  obtain ⟨tree, s', run, sees', holds⟩ :=
    inner { s with depth := s.depth + 1 } { sees with depth := by rw [atDepth] }
  refine ⟨tree, { s' with depth := s'.depth - 1 }, ?_, ?_, holds⟩
  · show (if s.depth ≥ maxNesting then skipTooDeep else _ : Parser Tree).run s = _
    rw [if_neg (by omega)]
    show (parse >>= _).run { s with depth := s.depth + 1 } = _
    rw [EStateM.run_bind, run]
    rfl
  · have atDepth' := sees'.depth
    exact { sees' with depth := by show s'.depth - 1 = depth; omega }

theorem allowingIn {p : Parser α} (inner : Consumes total depth before p after P) :
    Consumes total depth before (Parser.allowingIn p) after P := by
  intro s sees
  obtain ⟨a, s', run, sees', holds⟩ := inner { s with noIn := false } { sees with noIn := rfl }
  refine ⟨a, { s' with noIn := s.noIn }, ?_, { sees' with noIn := sees.noIn }, holds⟩
  show (p >>= _).run { s with noIn := false } = _
  rw [EStateM.run_bind, run]
  rfl

/-! ## §5. Loops. -/

/-- A round that goes on and has read something. -/
theorem iterateFor_again {body : α → Parser (Round α β)} {rounds : Nat} {a a' : α}
    {s s' : ParserState} (round : (body a).run s = .ok (.again a') s')
    (moves : s.position < s'.position) :
    (iterateFor body (rounds + 1) a).run s = (iterateFor body rounds a').run s' := by
  rw [iterateFor]
  show (body a >>= _).run s = _
  rw [EStateM.run_bind, round]
  show (if s'.position ≤ s.position then throw .stalled else iterateFor body rounds a').run s' = _
  rw [if_neg (Nat.not_le_of_lt moves)]

/-- A round that finishes. -/
theorem iterateFor_finish {body : α → Parser (Round α β)} {rounds : Nat} {a : α} {b : β}
    {s s' : ParserState} (round : (body a).run s = .ok (.finish b) s') :
    (iterateFor body (rounds + 1) a).run s = .ok b s' := by
  rw [iterateFor]
  show (body a >>= _).run s = _
  rw [EStateM.run_bind, round]
  rfl

/-- More rounds make no difference to a loop that ends. -/
theorem iterateFor_mono {body : α → Parser (Round α β)} {rounds rounds' : Nat} {a : α} {b : β}
    {s s' : ParserState} (run : (iterateFor body rounds a).run s = .ok b s')
    (more : rounds ≤ rounds') : (iterateFor body rounds' a).run s = .ok b s' := by
  -- By induction on the rounds that are enough; a loop that has ended asks for no more.
  induction rounds generalizing rounds' a s with
  | zero => cases run
  | succ rounds ih =>
      obtain ⟨further, rfl⟩ := Nat.exists_eq_add_of_le' (Nat.lt_of_lt_of_le (Nat.succ_pos _) more)
      have fewer : rounds ≤ further := by omega
      cases round : (body a).run s with
      | error reason s₁ =>
          rw [iterateFor] at run
          change (body a >>= _).run s = _ at run
          rw [EStateM.run_bind, round] at run
          cases run
      | ok r s₁ =>
          cases r with
          | finish c =>
              rw [iterateFor_finish round] at run ⊢
              exact run
          | again a' =>
              by_cases moves : s.position < s₁.position
              · rw [iterateFor_again round moves] at run ⊢
                exact ih run fewer
              · rw [iterateFor] at run
                change (body a >>= _).run s = _ at run
                rw [EStateM.run_bind, round] at run
                change (if s₁.position ≤ s.position then throw Halt.stalled
                  else iterateFor body rounds a').run s₁ = _ at run
                rw [if_pos (Nat.le_of_not_lt moves)] at run
                cases run

/-- The first round ends the loop. -/
theorem finish {body : α → Parser (Round α β)} {a : α}
    (round : Consumes total depth before (body a) after fun r => ∃ b, r = .finish b ∧ Q b) :
    Consumes total depth before (iterate body a) after Q := by
  intro s sees
  obtain ⟨_, s', run, sees', b, rfl, holds⟩ := round s sees
  exact ⟨b, s', iterateFor_finish run, sees', holds⟩

/-- **The first round goes on with another value,** and some lexemes have been read. -/
theorem again {body : α → Parser (Round α β)} {a : α} (reads : between.length < before.length)
    (round : Consumes total depth before (body a) between fun r =>
      ∃ a', r = .again a' ∧ Consumes total depth between (iterate body a') after Q) :
    Consumes total depth before (iterate body a) after Q := by
  intro s sees
  obtain ⟨_, s', run, sees', a', rfl, others⟩ := round s sees
  obtain ⟨b, s'', run', sees'', holds⟩ := others s' sees'
  refine ⟨b, s'', ?_, sees'', holds⟩
  have position := sees.position
  have position' := sees'.position
  have moves : s.position < s'.position := by omega
  show (iterateFor body (s.total - s.position + 1) a).run s = _
  rw [iterateFor_again run moves]
  change (iterateFor body (s'.total - s'.position + 1) a').run s' = _ at run'
  -- The lexemes read make up for the round that was run.
  refine iterateFor_mono run' ?_
  rw [sees.isTotal, sees'.isTotal]
  omega

/-- **A loop with one round for every item of a list.**  What comes next depends on the
items that are left, and so does what is known of the value of the loop. -/
theorem forEach {ε : Type} {body : α → Parser (Round α β)} (ahead : List ε → List Lexeme)
    {I : List ε → α → Prop}
    (round : ∀ e es a, I (e :: es) a → (ahead es).length < (ahead (e :: es)).length ∧
      Consumes total depth (ahead (e :: es)) (body a) (ahead es) fun r =>
        ∃ a', r = .again a' ∧ I es a')
    (last : ∀ a, I [] a →
      Consumes total depth (ahead []) (body a) after fun r => ∃ b, r = .finish b ∧ Q b)
    {es : List ε} {a : α} (start : I es a) :
    Consumes total depth (ahead es) (iterate body a) after Q := by
  induction es generalizing a with
  | nil => exact finish (last a start)
  | cons e es ih =>
      obtain ⟨reads, first⟩ := round e es a start
      refine again reads (first.mono ?_)
      rintro _ ⟨a', rfl, holds⟩
      exact ⟨a', rfl, ih holds⟩

end Consumes

end Parser

end StackLint
