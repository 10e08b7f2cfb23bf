/-
  StackLint.Proofs.Enclosed.Parser
  ────────────────────────────────
  **PARSERS IN FRONT OF A FORK.**

  A `Fork` is a place at which the tokens ahead may go on in two ways, each time with
  the rest of a template.  `Parser.Tracks F p p'` says that what `p` does, if it stays
  in front of the fork and complains about nothing, `p'` does as well where the tokens
  go on in the other way: it ends with the same value at the same place.  There is one
  rule for each way to build a parser.
-/
import StackLint.Proofs.Enclosed.Lookahead
import StackLint.Proofs.Parse.Rounds

namespace StackLint

/-! ## §1. Forks. -/

/-- **Two ways to go on.**  Either way the rest of a template comes next, at the same
place of the text. -/
structure Fork where
  edge : Token
  beyond : List Token
  edge' : Token
  beyond' : List Token
  /-- The end of the text in the second way. -/
  final' : Token
  /-- How many tokens there are in all in the second way. -/
  total : Nat
  continues : edge.continuesTemplate = true
  continues' : edge'.continuesTemplate = true
  start : edge'.start = edge.start
  newline : edge'.newlineBefore = edge.newlineBefore

namespace Fork

variable (F : Fork)

/-- The two states have the tokens `front` ahead and then come to the fork, each in its
own way. -/
structure Meets (front : List Token) (s s' : ParserState) : Prop where
  ahead : s.ahead = front ++ F.edge :: F.beyond
  ahead' : s'.ahead = front ++ F.edge' :: F.beyond'
  enclosed : Enclosed front
  position : s'.position = s.position
  lastStop : s'.lastStop = s.lastStop
  complaints : s'.complaints = s.complaints
  noIn : s'.noIn = s.noIn
  depth : s'.depth = s.depth
  final : s'.final = F.final'
  total : s'.total = F.total
  whole : s'.position + s'.ahead.length = F.total

/-- The two states differ behind the fork, or they are the same. -/
inductive Near : (forked : Bool) → ParserState → ParserState → Prop
  | same (s : ParserState) : Near false s s
  | meets {front : List Token} {s s' : ParserState} (meets : F.Meets front s s') : Near true s s'

/-- The fork still lies ahead, and there have been no complaints. -/
structure Inside (s : ParserState) : Prop where
  ahead : F.edge :: F.beyond <:+ s.ahead
  complaints : s.complaints = []

/-- The same token, or the two tokens at the fork. -/
inductive Alike : Token → Token → Prop
  | same (t : Token) : Alike t t
  | edges : Alike F.edge F.edge'

/-- Alike tokens, and those behind them; of what is behind the fork nothing is known. -/
inductive AlikeNext : Token → Token → Token → Token → Prop
  | same (t : Token) {next next' : Token} (alike : F.Alike next next') : AlikeNext t next t next'
  | edges (next next' : Token) : AlikeNext F.edge next F.edge' next'

namespace Alike

variable {F} {t t' : Token} (alike : F.Alike t t')

include alike

theorem is (p : Punct) : t'.is p = t.is p := by
  cases alike with
  | same => rfl
  | edges => rw [Token.is_of_continues F.continues, Token.is_of_continues F.continues']

theorem isOneOf (ps : List Punct) : t'.isOneOf ps = t.isOneOf ps := by
  cases alike with
  | same => rfl
  | edges => rw [Token.isOneOf_of_continues F.continues, Token.isOneOf_of_continues F.continues']

theorem isWord : t'.isWord = t.isWord := by
  cases alike with
  | same => rfl
  | edges => rw [Token.isWord_of_continues F.continues, Token.isWord_of_continues F.continues']

theorem isTheWord (w : Text) : t'.isTheWord w = t.isTheWord w := by
  cases alike with
  | same => rfl
  | edges =>
      rw [Token.isTheWord_of_continues F.continues, Token.isTheWord_of_continues F.continues']

theorem isWordIn (words : List Text) : t'.isWordIn words = t.isWordIn words := by
  cases alike with
  | same => rfl
  | edges => rw [Token.isWordIn_of_continues F.continues, Token.isWordIn_of_continues F.continues']

theorem isString : t'.isString = t.isString := by
  cases alike with
  | same => rfl
  | edges => rw [Token.isString_of_continues F.continues, Token.isString_of_continues F.continues']

theorem isNumber : t'.isNumber = t.isNumber := by
  cases alike with
  | same => rfl
  | edges => rw [Token.isNumber_of_continues F.continues, Token.isNumber_of_continues F.continues']

theorem opensTemplate : t'.opensTemplate = t.opensTemplate := by
  cases alike with
  | same => rfl
  | edges =>
      rw [Token.opensTemplate_of_continues F.continues, Token.opensTemplate_of_continues F.continues']

theorem continuesTemplate : t'.continuesTemplate = t.continuesTemplate := by
  cases alike with
  | same => rfl
  | edges => rw [F.continues, F.continues']

theorem isEnd : t'.isEnd = t.isEnd := by
  cases alike with
  | same => rfl
  | edges => rw [Token.isEnd_of_continues F.continues, Token.isEnd_of_continues F.continues']

theorem newlineBefore : t'.newlineBefore = t.newlineBefore := by
  cases alike with
  | same => rfl
  | edges => exact F.newline

theorem start : t'.start = t.start := by
  cases alike with
  | same => rfl
  | edges => exact F.start

/-- Two tokens that show something else than the rest of a template are the same. -/
theorem eq_of {p : Token → Bool} (shows : p t = true)
    (other : ∀ u : Token, u.continuesTemplate = true → p u = false) : t' = t := by
  cases alike with
  | same => rfl
  | edges =>
      rw [other _ F.continues] at shows
      cases shows

end Alike

/-! ## §2. States. -/

namespace Inside

variable {F} {s : ParserState}

/-- If the fork lies ahead after reading some tokens, it lay ahead before. -/
theorem of_skip {count : Nat} (inside : F.Inside (s.skip count)) : F.Inside s where
  ahead := inside.ahead.trans (List.drop_suffix count s.ahead)
  complaints := inside.complaints

end Inside

/-- The fork lies ahead of the first state, too, and where the word `in` is an operator
it stays one. -/
structure Leads (s s₁ : ParserState) : Prop where
  inside : F.Inside s
  noIn : s.noIn = false → s₁.noIn = false

namespace Leads

variable {F} {s s₁ s₂ : ParserState}

theorem refl (inside : F.Inside s) : F.Leads s s :=
  ⟨inside, id⟩

theorem trans (leads : F.Leads s s₁) (later : F.Leads s₁ s₂) : F.Leads s s₂ :=
  ⟨leads.inside, fun operator => later.noIn (leads.noIn operator)⟩

theorem skip {count : Nat} (inside : F.Inside (s.skip count)) : F.Leads s (s.skip count) :=
  ⟨inside.of_skip, id⟩

end Leads

namespace Near

variable {F} {forked : Bool} {s s' : ParserState}

section

variable (near : F.Near forked s s')

include near

theorem position : s'.position = s.position := by
  cases near with
  | same => rfl
  | meets meets => exact meets.position

theorem lastStop : s'.lastStop = s.lastStop := by
  cases near with
  | same => rfl
  | meets meets => exact meets.lastStop

theorem noIn : s'.noIn = s.noIn := by
  cases near with
  | same => rfl
  | meets meets => exact meets.noIn

theorem depth : s'.depth = s.depth := by
  cases near with
  | same => rfl
  | meets meets => exact meets.depth

theorem current : F.Alike s.current s'.current := by
  cases near with
  | same => exact .same _
  | @meets front _ _ meets =>
      unfold ParserState.current
      rw [meets.ahead, meets.ahead']
      cases front with
      | nil => exact .edges
      | cons t rest => exact .same t

theorem currentNext : F.AlikeNext s.current (s.peek 1) s'.current (s'.peek 1) := by
  cases near with
  | same => exact .same _ (.same _)
  | @meets front _ _ meets =>
      unfold ParserState.current ParserState.peek
      rw [meets.ahead, meets.ahead']
      match front with
      | [] => exact .edges _ _
      | [t] => exact .same t .edges
      | t :: next :: rest => exact .same t (.same next)

end

/-- Behind a token in front of the fork, one more token is seen both ways. -/
theorem peek_one (near : F.Near forked s s') (first : s.current.continuesTemplate = false) :
    F.Alike (s.peek 1) (s'.peek 1) := by
  cases near with
  | same => exact .same _
  | @meets front _ _ meets =>
      unfold ParserState.current at first
      unfold ParserState.peek
      rw [meets.ahead] at first
      rw [meets.ahead, meets.ahead']
      match front with
      | [] => exact absurd F.continues (Bool.eq_false_iff.mp first)
      | [_] => exact .edges
      | _ :: t :: _ => exact .same t

/-- Behind two tokens in front of the fork, one more token is seen both ways. -/
theorem peek_two (near : F.Near forked s s') (first : s.current.continuesTemplate = false)
    (second : (s.peek 1).continuesTemplate = false) : F.Alike (s.peek 2) (s'.peek 2) := by
  cases near with
  | same => exact .same _
  | @meets front _ _ meets =>
      unfold ParserState.current at first
      unfold ParserState.peek at second ⊢
      rw [meets.ahead] at first second
      rw [meets.ahead, meets.ahead']
      match front with
      | [] => exact absurd F.continues (Bool.eq_false_iff.mp first)
      | [_] => exact absurd F.continues (Bool.eq_false_iff.mp second)
      | [_, _] => exact .edges
      | _ :: _ :: t :: _ => exact .same t

/-- What is read in front of the fork are tokens in front of it. -/
theorem short_of_skip {front : List Token} {count : Nat} (meets : F.Meets front s s')
    (inside : F.Inside (s.skip count)) : count ≤ front.length := by
  have left : (F.edge :: F.beyond).length ≤ (s.ahead.drop count).length := inside.ahead.length_le
  rw [meets.ahead, List.length_drop, List.length_append, List.length_cons] at left
  omega

theorem meets_skip {front : List Token} {count : Nat} (meets : F.Meets front s s')
    (short : count ≤ front.length) :
    F.Meets (front.drop count) (s.skip count) (s'.skip count) := by
  have taken (rest : List Token) : (front ++ rest).take count = front.take count :=
    List.take_append_of_le_length short
  have dropped (rest : List Token) : (front ++ rest).drop count = front.drop count ++ rest :=
    List.drop_append_of_le_length short
  refine ⟨?_, ?_, meets.enclosed.drop count, ?_, ?_, meets.complaints, meets.noIn, meets.depth,
    meets.final, meets.total, ?_⟩
  · show s.ahead.drop count = _
    rw [meets.ahead, dropped]
  · show s'.ahead.drop count = _
    rw [meets.ahead', dropped]
  · show s'.position + (s'.ahead.take count).length = s.position + (s.ahead.take count).length
    rw [meets.ahead, meets.ahead', taken, taken, meets.position]
  · show ((s'.ahead.take count).getLast?.map Token.stop).getD s'.lastStop
      = ((s.ahead.take count).getLast?.map Token.stop).getD s.lastStop
    rw [meets.ahead, meets.ahead', taken, taken, meets.lastStop]
  · show s'.position + (s'.ahead.take count).length + (s'.ahead.drop count).length = F.total
    rw [Nat.add_assoc, ← List.length_append, List.take_append_drop]
    exact meets.whole

/-- Both states read the same tokens in front of the fork. -/
theorem skip (near : F.Near forked s s') {count : Nat} (inside : F.Inside (s.skip count)) :
    F.Near forked (s.skip count) (s'.skip count) := by
  cases near with
  | same => exact .same _
  | meets meets => exact .meets (meets_skip meets (short_of_skip meets inside))

/-- A change that does not touch the tokens. -/
theorem change (near : F.Near forked s s') {f : ParserState → ParserState}
    (kept : ∀ front s s', F.Meets front s s' → F.Meets front (f s) (f s')) :
    F.Near forked (f s) (f s') := by
  cases near with
  | same => exact .same _
  | meets meets => exact .meets (kept _ _ _ meets)

end Near

end Fork

namespace Parser

variable {F : Fork} {α β γ : Type} {forked : Bool} {s s' : ParserState}

/-! ## §3. Tracking. -/

/-- If the first parser runs from `s` without complaints to a place in front of the fork,
the second one does the same from `s'`. -/
def TracksAt (F : Fork) (forked : Bool) (s s' : ParserState) (p p' : Parser α) : Prop :=
  ∀ a s₁, p.run s = .ok a s₁ → F.Inside s₁ →
    F.Leads s s₁ ∧ ∃ s₁', p'.run s' = .ok a s₁' ∧ F.Near forked s₁ s₁'

/-- **The second parser does what the first one does in front of the fork.** -/
def Tracks (F : Fork) (p p' : Parser α) : Prop :=
  ∀ forked s s', F.Near forked s s' → TracksAt F forked s s' p p'

namespace TracksAt

variable {p p' : Parser α} {k k' : α → Parser β}

theorem pure (near : F.Near forked s s') (a : α) :
    TracksAt F forked s s' (Pure.pure a) (Pure.pure a) := by
  intro b s₁ run inside
  cases run
  exact ⟨.refl inside, s', rfl, near⟩

/-- **One parser after another.** -/
theorem bind (first : TracksAt F forked s s' p p') (next : ∀ a, Tracks F (k a) (k' a)) :
    TracksAt F forked s s' (p >>= k) (p' >>= k') := by
  intro b s₂ run inside
  rw [EStateM.run_bind] at run
  cases run₁ : p.run s with
  | error reason s₁ =>
      rw [run₁] at run
      cases run
  | ok a s₁ =>
      rw [run₁] at run
      -- The second part has not gone beyond the fork, so the first one has not either.
      have later : F.Leads s₁ s₂ := (next a _ s₁ s₁ (.same s₁) b s₂ run inside).1
      obtain ⟨leads, s₁', run₁', near₁⟩ := first a s₁ run₁ later.inside
      obtain ⟨_, s₂', run', near₂⟩ := next a _ s₁ s₁' near₁ b s₂ run inside
      refine ⟨leads.trans later, s₂', ?_, near₂⟩
      rw [EStateM.run_bind, run₁']
      exact run'

/-- What is read off the states does not change them. -/
theorem look (value : ParserState → γ) {q q' : Parser γ} {k k' : γ → Parser β}
    (stays : ∀ s, q.run s = .ok (value s) s) (stays' : ∀ s, q'.run s = .ok (value s) s)
    (next : TracksAt F forked s s' (k (value s)) (k' (value s'))) :
    TracksAt F forked s s' (q >>= k) (q' >>= k') := by
  intro b s₂ run inside
  rw [EStateM.run_bind, stays] at run
  obtain ⟨leads, s₂', run', near⟩ := next b s₂ run inside
  refine ⟨leads, s₂', ?_, near⟩
  rw [EStateM.run_bind, stays']
  exact run'

theorem discard (first : TracksAt F forked s s' p p') :
    TracksAt F forked s s' (discard p) (discard p') := by
  unfold Functor.discard
  show TracksAt F forked s s' (Function.const α () <$> p) (Function.const α () <$> p')
  rw [← bind_pure_comp, ← bind_pure_comp]
  exact first.bind fun _ _ _ _ near => .pure near ()

theorem bind_get {k k' : ParserState → Parser β} (next : TracksAt F forked s s' (k s) (k' s')) :
    TracksAt F forked s s' (get >>= k) (get >>= k') :=
  .look id (fun _ => rfl) (fun _ => rfl) next

theorem bind_current {k k' : Token → Parser β}
    (next : TracksAt F forked s s' (k s.current) (k' s'.current)) :
    TracksAt F forked s s' (current >>= k) (current >>= k') :=
  .look ParserState.current (fun _ => rfl) (fun _ => rfl) next

theorem bind_peek {count : Nat} {k k' : Token → Parser β}
    (next : TracksAt F forked s s' (k (s.peek count)) (k' (s'.peek count))) :
    TracksAt F forked s s' (peek count >>= k) (peek count >>= k') :=
  .look (·.peek count) (fun _ => rfl) (fun _ => rfl) next

theorem ite {c c' : Prop} [Decidable c] [Decidable c'] {q q' : Parser α} (same : c' ↔ c)
    (yes : c → TracksAt F forked s s' p p') (no : ¬c → TracksAt F forked s s' q q') :
    TracksAt F forked s s' (if c then p else q) (if c' then p' else q') := by
  by_cases holds : c
  · rw [if_pos holds, if_pos (same.mpr holds)]
    exact yes holds
  · rw [if_neg holds, if_neg (mt same.mp holds)]
    exact no holds

end TracksAt

namespace Tracks

variable {p p' : Parser α} {k k' : α → Parser β}

theorem pure (a : α) : Tracks F (pure a) (pure a) :=
  fun _ _ _ near => .pure near a

theorem throw (reason reason' : Halt) :
    Tracks F (throw reason : Parser α) (throw reason' : Parser α) := by
  intro forked s s' _ a s₁ run _
  cases run

theorem bind (first : Tracks F p p') (next : ∀ a, Tracks F (k a) (k' a)) :
    Tracks F (p >>= k) (p' >>= k') :=
  fun _ s s' near => (first _ s s' near).bind next

theorem map {f : α → β} (first : Tracks F p p') : Tracks F (f <$> p) (f <$> p') := by
  rw [← bind_pure_comp, ← bind_pure_comp]
  exact first.bind fun a => .pure (f a)

theorem discard (first : Tracks F p p') : Tracks F (discard p) (discard p') := by
  unfold Functor.discard
  exact first.map

theorem ite {c c' : Prop} [Decidable c] [Decidable c'] {q q' : Parser α} (same : c' ↔ c)
    (yes : c → Tracks F p p') (no : ¬c → Tracks F q q') :
    Tracks F (if c then p else q) (if c' then p' else q') :=
  fun _ s s' near =>
    .ite same (fun holds => yes holds _ s s' near) fun fails => no fails _ s s' near

/-- Something may be done before the rest. -/
theorem ite_then {c c' : Prop} [Decidable c] [Decidable c'] {act act' : Parser Unit}
    {rest rest' : Unit → Parser β} (same : c' ↔ c) (first : c → Tracks F act act')
    (next : Tracks F (rest ()) (rest' ())) :
    Tracks F (if c then act >>= rest else rest ()) (if c' then act' >>= rest' else rest' ()) :=
  .ite same (fun holds => (first holds).bind fun _ => next) fun _ => next

theorem bind_current {k k' : Token → Parser β}
    (next : ∀ t t', F.Alike t t' → Tracks F (k t) (k' t')) :
    Tracks F (current >>= k) (current >>= k') :=
  fun _ s s' near => .bind_current (next _ _ near.current _ s s' near)

theorem bind_currentNext {k k' : Token → Token → Parser β}
    (next : ∀ t n t' n', F.AlikeNext t n t' n' → Tracks F (k t n) (k' t' n')) :
    Tracks F (current >>= fun t => peek 1 >>= k t) (current >>= fun t => peek 1 >>= k' t) :=
  fun _ s s' near => .bind_current (.bind_peek (next _ _ _ _ near.currentNext _ s s' near))

theorem bind_position {k k' : Nat → Parser β} (next : ∀ n, Tracks F (k n) (k' n)) :
    Tracks F (position >>= k) (position >>= k') := by
  intro forked s s' near
  refine .look ParserState.position (fun _ => rfl) (fun _ => rfl) ?_
  rw [near.position]
  exact next _ _ s s' near

/-! ## §4. Reading. -/

theorem skip (count : Nat) : Tracks F (skip count) (skip count) := by
  intro forked s s' near a s₁ run inside
  cases run
  exact ⟨.skip inside, s'.skip count, rfl, near.skip inside⟩

/-- **A token that is read in front of the fork** is the same both ways. -/
theorem bind_advance {k k' : Token → Parser β} (next : ∀ t, Tracks F (k t) (k' t)) :
    Tracks F (advance >>= k) (advance >>= k') := by
  intro forked s s' near b s₂ run inside
  change (k s.current).run (s.skip 1) = .ok b s₂ at run
  have later : F.Leads (s.skip 1) s₂ :=
    (next s.current _ (s.skip 1) (s.skip 1) (.same _) b s₂ run inside).1
  have near₁ := near.skip later.inside
  have same : s'.current = s.current := by
    cases near with
    | same => rfl
    | @meets front _ _ meets =>
        -- A token could be read, so there is one in front of the fork.
        have short := Fork.Near.short_of_skip meets later.inside
        cases front with
        | nil => exact absurd short (Nat.not_succ_le_zero 0)
        | cons t rest =>
            unfold ParserState.current
            rw [meets.ahead, meets.ahead']
            rfl
  obtain ⟨_, s₂', run', near₂⟩ := next s.current _ _ _ near₁ b s₂ run inside
  refine ⟨(Fork.Leads.skip later.inside).trans later, s₂', ?_, near₂⟩
  change (k' s'.current).run (s'.skip 1) = _
  rw [same]
  exact run'

/-- Where something is complained about, nothing is claimed. -/
theorem complainAt {offset offset' : Nat} {c c' : Complaint} :
    Tracks F (complainAt offset c) (complainAt offset' c') := by
  intro forked s s' _ a s₁ run inside
  cases run
  cases inside.complaints

theorem complain {c c' : Complaint} : Tracks F (complain c) (complain c') :=
  .bind_current fun _ _ _ => .complainAt

theorem accepts {test : Token → Bool} (same : ∀ t t', F.Alike t t' → test t' = test t) :
    Tracks F
      (do
        let found := test (← current)
        if found then Parser.skip 1
        return found)
      (do
        let found := test (← current)
        if found then Parser.skip 1
        return found) := by
  refine .bind_current fun t t' alike => ?_
  rw [same t t' alike]
  exact .ite_then Iff.rfl (fun _ => .skip 1) (.pure _)

theorem acceptOneOf (ps : List Punct) : Tracks F (acceptOneOf ps) (acceptOneOf ps) :=
  .accepts fun _ _ alike => alike.isOneOf ps

theorem accept (p : Punct) : Tracks F (accept p) (accept p) :=
  .acceptOneOf [p]

theorem acceptWord (word : Text) : Tracks F (acceptWord word) (acceptWord word) :=
  .accepts fun _ _ alike => alike.isTheWord word

theorem expect (p : Punct) : Tracks F (expect p) (expect p) := by
  refine (accept p).bind fun found => .ite Iff.rfl (fun _ => .pure found) fun _ => ?_
  exact .bind_current fun t t' _ => complain.bind fun _ => .pure found

theorem close (start : Nat) (form : Form Tree) : Tracks F (close start form) (close start form) := by
  intro forked s s' near
  refine .look ParserState.lastStop (fun _ => rfl) (fun _ => rfl) ?_
  rw [near.lastStop]
  exact Tracks.pure _ _ s s' near

/-! ## §5. Loops. -/

/-- More tokens come before the fork than behind a round that has read some. -/
theorem front_lt {front front₁ : List Token} {s₁ s₁' : ParserState} (meets : F.Meets front s s')
    (meets₁ : F.Meets front₁ s₁ s₁') (moves : s'.position < s₁'.position) :
    front₁.length < front.length := by
  have whole := meets.whole
  have whole₁ := meets₁.whole
  rw [meets.ahead', List.length_append] at whole
  rw [meets₁.ahead', List.length_append] at whole₁
  omega

/-- The second way has rounds enough: as many as the first one, or more than there are
tokens in front of the fork. -/
inductive Enough (F : Fork) (rounds rounds' : Nat) : Bool → ParserState → ParserState → Prop
  | same {s s' : ParserState} (more : rounds ≤ rounds') : Enough F rounds rounds' false s s'
  | meets {front : List Token} {s s' : ParserState} (meets : F.Meets front s s')
      (more : front.length < rounds') : Enough F rounds rounds' true s s'

namespace Enough

variable {rounds rounds' : Nat}

theorem pos (enough : Enough F (rounds + 1) rounds' forked s s') :
    ∃ fewer, rounds' = fewer + 1 := by
  cases enough with
  | same more => exact Nat.exists_eq_add_of_le' (Nat.le_trans (Nat.le_add_left 1 rounds) more)
  | meets _ more => exact Nat.exists_eq_add_of_le' (Nat.succ_le_of_lt (Nat.zero_lt_of_lt more))

/-- One round later there are still enough. -/
theorem again {s₁ s₁' : ParserState} (enough : Enough F (rounds + 1) (rounds' + 1) forked s s')
    (near : F.Near forked s₁ s₁') (moves : s'.position < s₁'.position) :
    Enough F rounds rounds' forked s₁ s₁' := by
  cases enough with
  | same more => exact .same (Nat.le_of_succ_le_succ more)
  | meets meets more =>
      cases near with
      | meets later =>
          have fewer := front_lt meets later moves
          exact .meets later (by omega)

theorem start (near : F.Near forked s s') :
    Enough F (s.total - s.position + 1) (s'.total - s'.position + 1) forked s s' := by
  cases near with
  | same => exact .same (Nat.le_refl _)
  | meets meets =>
      refine .meets meets ?_
      have whole := meets.whole
      have total := meets.total
      rw [meets.ahead', List.length_append] at whole
      omega

end Enough

open Consumes (iterateFor_again iterateFor_finish)

/-- A loop with rounds enough. -/
theorem iterateFor {body body' : α → Parser (Round α β)}
    (round : ∀ a, Tracks F (body a) (body' a)) {rounds rounds' : Nat} (a : α)
    (near : F.Near forked s s') (enough : Enough F rounds rounds' forked s s') :
    TracksAt F forked s s' (iterateFor body rounds a) (iterateFor body' rounds' a) := by
  -- By induction on the rounds of the first loop, with the states and the mode general: the
  -- rest of the loop is also run beside itself, to see that the fork still lies ahead.
  induction rounds generalizing rounds' a s s' forked with
  | zero =>
      intro b s₂ run _
      cases run
  | succ rounds ih =>
      intro b s₂ run inside
      obtain ⟨fewer, rfl⟩ := enough.pos
      cases firstRound_of_iterateFor run with
      | finish isRound =>
          obtain ⟨leads, s₁', isRound', near₁⟩ := round a _ s s' near _ s₂ isRound inside
          exact ⟨leads, s₁', iterateFor_finish isRound', near₁⟩
      | again a₁ s₁ isRound moves run =>
          have later : F.Leads s₁ s₂ :=
            (ih a₁ (.same s₁) (.same (Nat.le_refl rounds)) b s₂ run inside).1
          obtain ⟨leads, s₁', isRound', near₁⟩ :=
            round a _ s s' near _ s₁ isRound later.inside
          have moves' : s'.position < s₁'.position := by
            rw [near.position, near₁.position]
            exact moves
          obtain ⟨_, s₂', run', near₂⟩ :=
            ih a₁ near₁ (enough.again near₁ moves') b s₂ run inside
          refine ⟨leads.trans later, s₂', ?_, near₂⟩
          rw [iterateFor_again isRound' moves']
          exact run'

/-- **A loop tracks a loop** when its rounds do. -/
theorem iterate {body body' : α → Parser (Round α β)} (round : ∀ a, Tracks F (body a) (body' a))
    (a : α) : Tracks F (iterate body a) (iterate body' a) :=
  fun _ _ _ near => .bind_get (iterateFor round a near (.start near))

theorem again (a : α) : Tracks F (Pure.pure (.again a : Round α β)) (Pure.pure (.again a)) :=
  .pure _

/-! ## §6. Nesting. -/

theorem setDepth (next : Nat → Nat) :
    Tracks F (modify fun s => { s with depth := next s.depth } : Parser Unit)
      (modify fun s => { s with depth := next s.depth }) := by
  intro forked s s' near a s₁ run inside
  cases run
  refine ⟨⟨⟨inside.ahead, inside.complaints⟩, id⟩, { s' with depth := next s'.depth }, rfl, ?_⟩
  exact near.change (f := fun s => { s with depth := next s.depth })
    fun _ _ _ meets => { meets with depth := congrArg next meets.depth }

/-- A parser runs while the word `in` is an operator or is none; behind it the word is
again what it was, or it is an operator. -/
theorem withNoIn {flag last : Bool} {f : α → β} (inner : Tracks F p p')
    (near : F.Near forked s s') (stays : s.noIn = false → last = false) :
    TracksAt F forked s s'
      (do
        modify fun s => { s with noIn := flag }
        let a ← p
        modify fun s => { s with noIn := last }
        return f a)
      (do
        modify fun s => { s with noIn := flag }
        let a ← p'
        modify fun s => { s with noIn := last }
        return f a) := by
  intro b s₂ run inside
  change (p >>= fun a => modify (fun s => { s with noIn := last }) >>= fun _ => Pure.pure (f a)).run
    { s with noIn := flag } = _ at run
  rw [EStateM.run_bind] at run
  cases run₁ : p.run { s with noIn := flag } with
  | error reason s₁ =>
      rw [run₁] at run
      cases run
  | ok a s₁ =>
      rw [run₁] at run
      cases run
      have near₀ : F.Near forked { s with noIn := flag } { s' with noIn := flag } :=
        near.change (f := fun s => { s with noIn := flag })
          fun _ _ _ meets => { meets with noIn := rfl }
      obtain ⟨leads, s₁', run₁', near₁⟩ :=
        inner _ _ _ near₀ a s₁ run₁ ⟨inside.ahead, inside.complaints⟩
      refine ⟨⟨⟨leads.inside.ahead, leads.inside.complaints⟩, stays⟩, { s₁' with noIn := last },
        ?_, near₁.change (f := fun s => { s with noIn := last })
          fun _ _ _ meets => { meets with noIn := rfl }⟩
      change (p' >>= fun a => modify (fun s => { s with noIn := last }) >>= fun _ =>
        Pure.pure (f a)).run { s' with noIn := flag } = _
      rw [EStateM.run_bind, run₁']
      rfl

/-- Passing over an item is no complaint. -/
theorem complaints_skipItem (t : Token) (s : ParserState) :
    ∃ s₁, (skipItem t).run s = .ok () s₁ ∧ s₁.complaints = s.complaints := by
  unfold skipItem
  split
  · exact ⟨s.skip (groupWidth 0 s.ahead), rfl, rfl⟩
  split
  · exact ⟨s, rfl, rfl⟩
  · exact ⟨s.skip 1, rfl, rfl⟩

/-- What is nested too deep is complained about. -/
theorem skipTooDeep : Tracks F skipTooDeep skipTooDeep := by
  intro forked s s' _ tree s₂ run inside
  obtain ⟨s₁, item, complaints⟩ := complaints_skipItem s.current
    { s with complaints := (s.current.start, .nestingTooDeep) :: s.complaints }
  have behind : s₂ = s₁ := by
    unfold Parser.skipTooDeep at run
    change ((skipItem s.current >>= _).run _) = _ at run
    rw [EStateM.run_bind, item] at run
    change (if s₁.position = s.position then Pure.pure _ else Parser.close _ _ : Parser Tree).run s₁
      = _ at run
    split at run
    · cases run
      rfl
    · cases run
      rfl
  rw [← behind, inside.complaints] at complaints
  cases complaints

theorem nested {parse parse' : Parser Tree} (inner : Tracks F parse parse') :
    Tracks F (nested parse) (nested parse') := by
  intro forked s s' near
  refine .bind_get (.ite (by rw [near.depth]) (fun _ => skipTooDeep _ s s' near) fun _ => ?_)
  refine Tracks.bind (.setDepth (· + 1)) (fun _ => ?_) _ s s' near
  exact inner.bind fun tree => (Tracks.setDepth (· - 1)).bind fun _ => .pure tree

theorem allowingIn {parse parse' : Parser α} (inner : Tracks F parse parse') :
    Tracks F (allowingIn parse) (allowingIn parse') := by
  intro forked s s' near
  refine .bind_get ?_
  rw [near.noIn]
  exact withNoIn (f := id) inner near id

end Tracks

end Parser

end StackLint
