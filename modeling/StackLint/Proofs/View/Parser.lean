/-
  StackLint.Proofs.View.Parser
  ────────────────────────────
  **PARSERS THAT SEE NO DIFFERENCE.**

  `Parser.Commutes v f p q` says that `q` does on what a state looks like what
  `p` does on the state itself: it ends in the same way, with what the value of
  `p` looks like, and leaves behind what the state behind `p` looks like.  There
  is one rule for each way to build a parser; a loop commutes when its rounds do.
-/
import StackLint.Proofs.View.Basic

namespace StackLint

/-! ## §1. States. -/

/-- What the state of a parser looks like. -/
def ParserState.view (v : View) (s : ParserState) : ParserState where
  ahead := s.ahead.map (Token.view v)
  final := s.final.view v
  position := s.position + v.lead
  total := s.total + v.lead
  lastStop := v.offset s.lastStop
  complaints := s.complaints.map fun complaint => (v.offset complaint.1, complaint.2.view v)
  noIn := s.noIn
  depth := s.depth

namespace ParserState

variable (v : View) (s : ParserState)

theorem view_ahead : (s.view v).ahead = s.ahead.map (Token.view v) := rfl

theorem view_peek (count : Nat) : (s.view v).peek count = (s.peek count).view v := by
  show ((s.ahead.map (Token.view v))[count]?).getD (s.final.view v) = _
  rw [List.getElem?_map, Option.getD_map]
  rfl

theorem view_current : (s.view v).current = s.current.view v := by
  show ((s.ahead.map (Token.view v)).head?).getD (s.final.view v) = _
  rw [List.head?_map, Option.getD_map]
  rfl

theorem view_noIn : (s.view v).noIn = s.noIn := rfl

theorem view_skip (count : Nat) : (s.view v).skip count = (s.skip count).view v := by
  unfold skip view
  simp only [← List.map_take, ← List.map_drop, List.length_map, List.getLast?_map, Option.map_map]
  congr 1
  · omega
  · cases (s.ahead.take count).getLast? <;> rfl

end ParserState

namespace Parser

/-! ## §2. Commuting. -/

/-- How a run ends, seen from afar. -/
def viewResult (v : View) (f : α → β) :
    EStateM.Result Halt ParserState α → EStateM.Result Halt ParserState β
  | .ok a s => .ok (f a) (s.view v)
  | .error e s => .error e (s.view v)

/-- The second parser does on what a state looks like what the first one does on
the state. -/
def Commutes (v : View) (f : α → β) (p : Parser α) (q : Parser β) : Prop :=
  ∀ s, q.run (s.view v) = viewResult v f (p.run s)

variable {α α' β β' : Type} {v : View} {f : α → α'} {h : β → β'}

theorem Commutes.pure {a : α} {a' : α'} (same : a' = f a) : Commutes v f (pure a) (pure a') := by
  intro s
  rw [same]
  rfl

theorem Commutes.throw (e : Halt) : Commutes v f (throw e) (throw e) :=
  fun _ => rfl

/-- **One parser after another.** -/
theorem Commutes.bind {p : Parser α} {p' : Parser α'} {k : α → Parser β} {k' : α' → Parser β'}
    (first : Commutes v f p p') (next : ∀ a, Commutes v h (k a) (k' (f a))) :
    Commutes v h (p >>= k) (p' >>= k') := by
  intro s
  have same := first s
  rw [EStateM.run_bind, EStateM.run_bind]
  -- How the first part ends decides whether there is a second one.
  cases run : p.run s with
  | ok a s' =>
      rw [run] at same
      rw [same]
      exact next a s'
  | error e s' =>
      rw [run] at same
      rw [same]
      rfl

theorem Commutes.map {p : Parser α} {p' : Parser α'} {k : α → β} {k' : α' → β'}
    (first : Commutes v f p p') (same : ∀ a, k' (f a) = h (k a)) :
    Commutes v h (k <$> p) (k' <$> p') := by
  rw [← bind_pure_comp, ← bind_pure_comp]
  exact first.bind fun a => .pure (same a)

theorem Commutes.discard {p : Parser α} {p' : Parser α'} (first : Commutes v f p p') :
    Commutes v id (discard p) (discard p') := by
  unfold Functor.discard
  exact Commutes.map first fun _ => rfl

theorem Commutes.ite {c c' : Prop} [Decidable c] [Decidable c'] {p q : Parser α}
    {p' q' : Parser α'} (same : c' ↔ c) (yes : Commutes v f p p') (no : Commutes v f q q') :
    Commutes v f (if c then p else q) (if c' then p' else q') := by
  by_cases holds : c
  · rw [if_pos holds, if_pos (same.mpr holds)]
    exact yes
  · rw [if_neg holds, if_neg (mt same.mp holds)]
    exact no

/-- Something may be done before the rest. -/
theorem Commutes.ite_then {c c' : Prop} [Decidable c] [Decidable c'] {act act' : Parser Unit}
    {rest : Unit → Parser β} {rest' : Unit → Parser β'} (same : c' ↔ c)
    (first : Commutes v id act act') (next : Commutes v h (rest ()) (rest' ())) :
    Commutes v h (if c then act >>= rest else rest ()) (if c' then act' >>= rest' else rest' ()) :=
  .ite same (first.bind fun _ => next) next

/-! ## §3. The state. -/

theorem Commutes.get : Commutes v (ParserState.view v) get get :=
  fun _ => rfl

theorem Commutes.modify {change change' : ParserState → ParserState}
    (same : ∀ s : ParserState, change' (s.view v) = (change s).view v) :
    Commutes v id (modify change) (modify change') := by
  intro s
  show EStateM.Result.ok () (change' (s.view v)) = _
  rw [same]
  rfl

theorem current_commutes : Commutes v (Token.view v) current current :=
  .bind .get fun s => .pure (s.view_current v)

theorem peek_commutes (count : Nat) : Commutes v (Token.view v) (peek count) (peek count) :=
  .bind .get fun s => .pure (s.view_peek v count)

theorem position_commutes : Commutes v (· + v.lead) position position :=
  .bind .get fun _ => .pure rfl

theorem lastStop_commutes : Commutes v v.offset lastStop lastStop :=
  .bind .get fun _ => .pure rfl

theorem skip_commutes (count : Nat) : Commutes v id (skip count) (skip count) :=
  .modify fun s => s.view_skip v count

theorem advance_commutes : Commutes v (Token.view v) advance advance :=
  current_commutes.bind fun _ => (skip_commutes 1).bind fun _ => .pure rfl

theorem complainAt_commutes (offset : Nat) (c : Complaint) :
    Commutes v id (complainAt offset c) (complainAt (v.offset offset) (c.view v)) :=
  .modify fun _ => rfl

theorem complain_commutes (c : Complaint) : Commutes v id (complain c) (complain (c.view v)) :=
  current_commutes.bind fun t => complainAt_commutes t.start c

/-- Nothing has been read since. -/
theorem position_eq_iff {a b : Nat} : a + v.lead = b + v.lead ↔ a = b :=
  Nat.add_right_cancel_iff

theorem position_le_iff {a b : Nat} : a + v.lead ≤ b + v.lead ↔ a ≤ b :=
  Nat.add_le_add_iff_right

/-- A test on the next token that the view does not change. -/
theorem accepts_commutes {test test' : Token → Bool}
    (same : ∀ t : Token, test' (t.view v) = test t) :
    Commutes v id
      (do
        let found := test (← current)
        if found then skip 1
        return found)
      (do
        let found := test' (← current)
        if found then skip 1
        return found) := by
  refine current_commutes.bind fun t => ?_
  simp only [same]
  exact .ite_then Iff.rfl (skip_commutes 1) (.pure rfl)

theorem acceptOneOf_commutes (ps : List Punct) :
    Commutes v id (acceptOneOf ps) (acceptOneOf ps) :=
  accepts_commutes fun t => t.view_isOneOf v ps

theorem accept_commutes (p : Punct) : Commutes v id (accept p) (accept p) :=
  acceptOneOf_commutes [p]

theorem acceptWord_commutes {w : String} (listed : w ∈ reservedWords) :
    Commutes v id (acceptWord (Text.ofString w)) (acceptWord (Text.ofString w)) :=
  accepts_commutes fun t => t.view_isTheWord v listed

theorem view_shown (v : View) (t : Token) : shown (t.view v) = v.name (shown t) := by
  unfold shown
  simp only [Token.view_lexeme, Lexeme.view_value, Lexeme.view_kindName, v.name_eq_nil_iff]
  by_cases empty : t.lexeme.value = []
  · rw [if_pos empty, if_pos empty]
    exact (v.keeps (.kind t.lexeme.kindName_mem)).symm
  · rw [if_neg empty, if_neg empty]

theorem expect_commutes (p : Punct) : Commutes v id (expect p) (expect p) := by
  refine (accept_commutes p).bind fun found => ?_
  refine .ite Iff.rfl (.pure rfl) ?_
  refine current_commutes.bind fun t => ?_
  rw [view_shown]
  exact (complain_commutes (.expected p (shown t))).bind fun _ => .pure rfl

/-! ## §4. Nodes. -/

theorem close_commutes {start : Nat} {form form' : Form Tree}
    (same : form' = (form.map (Node.view v)).relabel v) :
    Commutes v (Node.view v) (close start form) (close (v.offset start) form') := by
  rw [same]
  exact lastStop_commutes.bind fun stop => .pure (Node.mk_eq_view v rfl rfl)

theorem view_leaf (v : View) (t : Token) (form : Form Tree) :
    (leaf t form).view v = leaf (t.view v) ((form.map (Node.view v)).relabel v) :=
  Node.view_mk v _ form

theorem leaf_commutes {t : Token} {form form' : Form Tree}
    (same : form' = (form.map (Node.view v)).relabel v) :
    Commutes v (Node.view v) (pure (leaf t form)) (pure (leaf (t.view v) form')) := by
  rw [same]
  exact .pure (view_leaf v t form).symm

theorem missing_commutes (t : Token) (c : Complaint) :
    Commutes v (Node.view v) (pure (missing t c)) (pure (missing (t.view v) (c.view v))) :=
  .pure (Node.mk_eq_view v rfl rfl)

/-! ## §5. Loops. -/

/-- The end of a round with other values. -/
def Round.map (f : α → α') (h : β → β') : Round α β → Round α' β'
  | .again a => .again (f a)
  | .finish b => .finish (h b)

theorem Commutes.iterateFor {body : α → Parser (Round α β)} {body' : α' → Parser (Round α' β')}
    (round : ∀ a, Commutes v (Round.map f h) (body a) (body' (f a))) (rounds : Nat) (a : α) :
    Commutes v h (iterateFor body rounds a) (iterateFor body' rounds (f a)) := by
  induction rounds generalizing a with
  | zero => exact .throw .stalled
  | succ rounds ih =>
      rw [Parser.iterateFor, Parser.iterateFor]
      refine position_commutes.bind fun before => ?_
      refine (round a).bind fun r => ?_
      cases r with
      | again a =>
          refine position_commutes.bind fun after => ?_
          exact .ite position_le_iff (.throw .stalled) (ih a)
      | finish b => exact .pure rfl

/-- **A loop commutes when its rounds do.** -/
theorem Commutes.iterate {body : α → Parser (Round α β)} {body' : α' → Parser (Round α' β')}
    {a : α} {a' : α'} (start : a' = f a)
    (round : ∀ a, Commutes v (Round.map f h) (body a) (body' (f a))) :
    Commutes v h (iterate body a) (iterate body' a') := by
  rw [start]
  refine Commutes.get.bind fun s => ?_
  have rounds : (s.view v).total - (s.view v).position = s.total - s.position :=
    Nat.add_sub_add_right s.total v.lead s.position
  rw [rounds]
  exact .iterateFor round _ a

theorem Commutes.again {a : α} {a' : α'} (same : a' = f a) :
    Commutes v (Round.map f h) (Pure.pure (.again a)) (Pure.pure (.again a')) := by
  rw [same]
  exact .pure rfl

/-- What was collected is handed over the other way round. -/
theorem Commutes.finish (items : List α) :
    Commutes v (Round.map (List.map f) (List.map f))
      (Pure.pure (.finish items.reverse : Round (List α) (List α)))
      (Pure.pure (.finish (items.map f).reverse)) := by
  rw [← List.map_reverse]
  exact .pure rfl

theorem skipWhile_commutes {p p' : Token → Token → Bool}
    (same : ∀ t next : Token, p' (t.view v) (next.view v) = p t next) :
    Commutes v id (skipWhile p) (skipWhile p') := by
  refine .iterate (f := id) rfl fun _ => ?_
  refine Commutes.get.bind fun s => ?_
  rw [s.view_current, s.view_peek]
  refine .ite ?_ (.pure rfl) ?_
  · rw [Token.view_isEnd, same]
  · exact (skip_commutes 1).bind fun _ => .pure rfl

/-! ## §6. Nesting. -/

theorem groupWidth_map (v : View) (depth : Nat) (tokens : List Token) :
    groupWidth depth (tokens.map (Token.view v)) = groupWidth depth tokens := by
  induction tokens generalizing depth with
  | nil => rfl
  | cons t rest ih =>
      rw [List.map_cons, groupWidth, groupWidth, Token.view_lexeme]
      cases t.lexeme <;> simp only [Lexeme.view, ih]

theorem skipGroup_commutes : Commutes v id skipGroup skipGroup := by
  refine Commutes.get.bind fun s => ?_
  rw [s.view_ahead, groupWidth_map]
  exact skip_commutes _

theorem contains_closerTexts (v : View) (t : Text) :
    closerTexts.contains (v.name t) = closerTexts.contains t := by
  refine v.contains_name ?_
  intro w inside
  obtain ⟨p, _, rfl⟩ := List.mem_map.mp inside
  exact .punct p

theorem skipItem_commutes (t : Token) : Commutes v id (skipItem t) (skipItem (t.view v)) := by
  refine .ite ?_ skipGroup_commutes ?_
  · rw [Token.view_isOneOf]
  refine .ite ?_ (.pure rfl) (skip_commutes 1)
  rw [Token.view_isEnd, Token.view_lexeme, Lexeme.view_value, contains_closerTexts]

theorem skipTooDeep_commutes : Commutes v (Node.view v) skipTooDeep skipTooDeep := by
  refine current_commutes.bind fun t => ?_
  refine position_commutes.bind fun before => ?_
  refine (complainAt_commutes t.start .nestingTooDeep).bind fun _ => ?_
  refine (skipItem_commutes t).bind fun _ => ?_
  refine position_commutes.bind fun after => ?_
  exact .ite position_eq_iff (missing_commutes t .nestingTooDeep) (close_commutes rfl)

theorem nested_commutes {parse parse' : Parser Tree}
    (inner : Commutes v (Node.view v) parse parse') :
    Commutes v (Node.view v) (nested parse) (nested parse') := by
  refine Commutes.get.bind fun s => ?_
  refine .ite Iff.rfl skipTooDeep_commutes ?_
  refine .bind (.modify fun _ => rfl) fun _ => ?_
  refine inner.bind fun tree => ?_
  exact .bind (.modify fun _ => rfl) fun _ => .pure rfl

theorem allowingIn_commutes {parse : Parser α} {parse' : Parser α'}
    (inner : Commutes v f parse parse') :
    Commutes v f (allowingIn parse) (allowingIn parse') := by
  refine Commutes.get.bind fun s => ?_
  refine .bind (.modify fun _ => rfl) fun _ => ?_
  refine inner.bind fun a => ?_
  exact .bind (.modify fun _ => rfl) fun _ => .pure rfl

end Parser

end StackLint
