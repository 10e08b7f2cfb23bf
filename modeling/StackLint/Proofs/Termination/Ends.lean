/-
  StackLint.Proofs.Termination.Ends
  ─────────────────────────────────
  **HOW A RUN ENDS.**

  `Goes L may p s Q` says that the run of `p` from the state `s` goes forward
  and ends: either normally, with `Q`, or early for one of the reasons that
  `may` admits.  When `may` admits none, the run ends normally.

  `Ends` says so of all states from some token on, and `Moves` says moreover
  that a token is read.  A loop ends because every round that goes on moves.
-/
import StackLint.Proofs.Parse.Reads

namespace StackLint

/-! ## §1. Runs. -/

/-- A state in the middle of a run: on the layout, at the token `q` or at a later
one, and with no more constructs open than may be. -/
structure ParserState.Running (s : ParserState) (L : Layout) (q : Nat) : Prop where
  on : s.On L
  reached : q ≤ s.position
  shallow : s.depth ≤ Parser.maxNesting

/-- What is known of the state in which a run stops early. -/
structure Breaks (L : Layout) (s s' : ParserState) : Prop where
  on : s'.On L
  le : s.position ≤ s'.position
  shallow : s'.depth ≤ Parser.maxNesting
  complains : Complains L s.complaints s'.complaints

namespace ParserState.Running

variable {L : Layout} {q q' : Nat} {s s' : ParserState}

/-- What was read leaves the state in the middle of the run. -/
theorem reads (running : s.Running L q) (reads : Reads L s s') : s'.Running L q where
  on := reads.on
  reached := Nat.le_trans running.reached reads.le
  shallow := by
    rw [reads.depth]
    exact running.shallow

/-- Behind a token that was read the run has come to the next one. -/
theorem moved (running : s.Running L q) (reads : Reads L s s') (moved : s.position < s'.position) :
    s'.Running L (q + 1) :=
  ⟨reads.on, Nat.lt_of_le_of_lt running.reached moved, (running.reads reads).shallow⟩

theorem widen (running : s.Running L q) (le : q' ≤ q) : s.Running L q' :=
  ⟨running.on, Nat.le_trans le running.reached, running.shallow⟩

theorem breaks (running : s.Running L q) : Breaks L s s :=
  ⟨running.on, Nat.le_refl _, running.shallow, .refl _⟩

end ParserState.Running

theorem Breaks.behind {L : Layout} {s s' s'' : ParserState} (reads : Reads L s s')
    (breaks : Breaks L s' s'') : Breaks L s s'' :=
  ⟨breaks.on, Nat.le_trans reads.le breaks.le, breaks.shallow,
    reads.complains.trans breaks.complains⟩

namespace Parser

variable {L : Layout} {may : Halt → Prop} {q : Nat} {α β : Type} {s : ParserState}

/-- **The run from `s` goes forward and ends:** normally, with `Q`, or early for a
reason that is admitted. -/
def Goes (L : Layout) (may : Halt → Prop) (p : Parser α) (s : ParserState)
    (Q : α → ParserState → Prop) : Prop :=
  match p.run s with
  | .ok a s' => Reads L s s' ∧ Q a s'
  | .error reason s' => may reason ∧ Breaks L s s'

namespace Goes

theorem of_run {p : Parser α} {a : α} {s' : ParserState} {Q : α → ParserState → Prop}
    (run : p.run s = .ok a s') (reads : Reads L s s') (holds : Q a s') : Goes L may p s Q := by
  unfold Goes
  rw [run]
  exact ⟨reads, holds⟩

/-- When no reason is admitted, the run ends normally. -/
theorem exists_ok {p : Parser α} {Q : α → ParserState → Prop}
    (goes : Goes L (fun _ => False) p s Q) :
    ∃ a s', p.run s = .ok a s' ∧ Reads L s s' ∧ Q a s' := by
  unfold Goes at goes
  cases run : p.run s with
  | ok a s' =>
      rw [run] at goes
      exact ⟨a, s', rfl, goes⟩
  | error reason s' =>
      rw [run] at goes
      exact goes.1.elim

theorem mono {p : Parser α} {P Q : α → ParserState → Prop} (goes : Goes L may p s P)
    (weaker : ∀ a s', Reads L s s' → P a s' → Q a s') : Goes L may p s Q := by
  unfold Goes at goes ⊢
  cases run : p.run s with
  | ok a s' =>
      rw [run] at goes
      exact ⟨goes.1, weaker a s' goes.1 goes.2⟩
  | error reason s' =>
      rw [run] at goes
      exact goes

theorem pure {a : α} {Q : α → ParserState → Prop} (on : s.On L) (holds : Q a s) :
    Goes L may (pure a) s Q :=
  .of_run rfl (.refl on) holds

theorem throw {reason : Halt} {Q : α → ParserState → Prop} (admitted : may reason)
    (running : s.Running L q) : Goes L may (throw reason) s Q :=
  ⟨admitted, running.breaks⟩

/-- **One parser after another.** -/
theorem bind {p : Parser α} {f : α → Parser β} {P : α → ParserState → Prop}
    {Q : β → ParserState → Prop} (goes : Goes L may p s P)
    (next : ∀ a s', Reads L s s' → P a s' → Goes L may (f a) s' Q) :
    Goes L may (p >>= f) s Q := by
  unfold Goes at goes ⊢
  rw [EStateM.run_bind]
  cases run : p.run s with
  | error reason s' =>
      rw [run] at goes
      exact goes
  | ok a s' =>
      rw [run] at goes
      obtain ⟨reads, holds⟩ := goes
      have rest := next a s' reads holds
      unfold Goes at rest
      show (match (f a).run s' with
        | .ok b s'' => Reads L s s'' ∧ Q b s''
        | .error reason s'' => may reason ∧ Breaks L s s'')
      cases further : (f a).run s' with
      | ok b s'' =>
          rw [further] at rest
          exact ⟨reads.trans rest.1, rest.2⟩
      | error reason s'' =>
          rw [further] at rest
          exact ⟨rest.1, .behind reads rest.2⟩

/-- What is read off the state is known. -/
theorem look {p : Parser α} {a : α} (same : p.run s = .ok a s) {f : α → Parser β}
    {Q : β → ParserState → Prop} (goes : Goes L may (f a) s Q) : Goes L may (p >>= f) s Q := by
  unfold Goes at goes ⊢
  rw [EStateM.run_bind, same]
  exact goes

theorem bind_get {f : ParserState → Parser β} {Q : β → ParserState → Prop}
    (goes : Goes L may (f s) s Q) : Goes L may (MonadState.get >>= f) s Q :=
  .look rfl goes

theorem bind_current {f : Token → Parser β} {Q : β → ParserState → Prop}
    (goes : Goes L may (f s.current) s Q) : Goes L may (current >>= f) s Q :=
  .look rfl goes

theorem bind_peek {count : Nat} {f : Token → Parser β} {Q : β → ParserState → Prop}
    (goes : Goes L may (f (s.peek count)) s Q) : Goes L may (peek count >>= f) s Q :=
  .look rfl goes

theorem bind_position {f : Nat → Parser β} {Q : β → ParserState → Prop}
    (goes : Goes L may (f s.position) s Q) : Goes L may (position >>= f) s Q :=
  .look rfl goes

theorem map {p : Parser α} {f : α → β} {Q : β → ParserState → Prop}
    (goes : Goes L may p s fun a s' => Q (f a) s') : Goes L may (f <$> p) s Q := by
  rw [← bind_pure_comp]
  exact goes.bind fun _ _ reads holds => .pure reads.on holds

theorem discard {p : Parser α} {P : α → ParserState → Prop} {Q : Unit → ParserState → Prop}
    (goes : Goes L may p s P) (weaker : ∀ a s', P a s' → Q () s') :
    Goes L may (discard p) s Q := by
  unfold Functor.discard
  exact Goes.map (goes.mono fun a s' _ holds => weaker a s' holds)

theorem ite {c : Prop} [Decidable c] {p p' : Parser α} {Q : α → ParserState → Prop}
    (yes : c → Goes L may p s Q) (no : ¬ c → Goes L may p' s Q) :
    Goes L may (if c then p else p') s Q := by
  split
  · next h => exact yes h
  · next h => exact no h

/-- **A loop goes forward and ends,** as its rounds do and every round that goes on
moves. -/
theorem iterate {body : α → Parser (Round α β)} {I : α → ParserState → Prop}
    {Q : β → ParserState → Prop} {a : α} (running : s.Running L q) (start : I a s)
    (round : ∀ a s, s.Running L q → I a s → Goes L may (body a) s fun r s' =>
      r.Keeps I Q s' ∧ ∀ a', r = .again a' → s.position < s'.position) :
    Goes L may (iterate body a) s Q := by
  -- There are more rounds than tokens left, and every round leaves fewer of them.
  have enough : ∀ rounds a s, s.Running L q → I a s → L.size - s.position < rounds →
      Goes L may (iterateFor body rounds a) s Q := by
    intro rounds
    induction rounds with
    | zero => exact fun _ _ _ _ never => absurd never (Nat.not_lt_zero _)
    | succ rounds ih =>
        intro a s running holds left
        rw [Parser.iterateFor]
        refine .bind_position ?_
        refine (round a s running holds).bind ?_
        rintro r s' reads ⟨kept, moved⟩
        cases r with
        | finish b => exact .pure reads.on kept
        | again a' =>
            have further := moved a' rfl
            have inside := reads.on.inside
            refine .bind_position (.ite (fun stalls => ?_) fun _ => ?_)
            · exact absurd stalls (Nat.not_le.mpr further)
            · exact ih a' s' (running.reads reads) kept (by omega)
  unfold Parser.iterate
  refine .bind_get (enough _ a s running start ?_)
  rw [running.on.total]
  exact Nat.lt_succ_self _

end Goes

/-! ## §2. Parsers that end. -/

/-- **From the token `q` on the parser ends,** having read forward. -/
def Ends (L : Layout) (may : Halt → Prop) (q : Nat) (p : Parser α) : Prop :=
  ∀ s, s.Running L q → Goes L may p s fun _ _ => True

/-- From the token `q` on, but in front of the end of the text, the parser ends. -/
def EndsInside (L : Layout) (may : Halt → Prop) (q : Nat) (p : Parser α) : Prop :=
  ∀ s, s.Running L q → s.position < L.size → Goes L may p s fun _ _ => True

/-- **From the token `q` on the parser reads a token,** if one is left, and ends. -/
def Moves (L : Layout) (may : Halt → Prop) (q : Nat) (p : Parser α) : Prop :=
  ∀ s, s.Running L q → s.position < L.size → Goes L may p s fun _ s' => s.position < s'.position

/-- From the token `q` on a round of a loop ends, and if it goes on, it has read a
token. -/
def Turns (L : Layout) (may : Halt → Prop) (q : Nat) (p : Parser (Round α β)) : Prop :=
  ∀ s, s.Running L q → Goes L may p s fun r s' => ∀ a, r = .again a → s.position < s'.position

namespace Ends

theorem later {p : Parser α} (ends : Ends L may q p) {q' : Nat} (le : q ≤ q') :
    Ends L may q' p :=
  fun s running => ends s (running.widen le)

theorem pure (a : α) : Ends L may q (pure a) :=
  fun _ running => .pure running.on trivial

theorem bind {p : Parser α} {f : α → Parser β} (first : Ends L may q p)
    (next : ∀ a, Ends L may q (f a)) : Ends L may q (p >>= f) := by
  intro s running
  refine (first s running).bind ?_
  intro a s' reads _
  exact next a s' (running.reads reads)

theorem map {p : Parser α} (ends : Ends L may q p) (f : α → β) : Ends L may q (f <$> p) := by
  rw [← bind_pure_comp]
  exact ends.bind fun a => .pure (f a)

theorem discard {p : Parser α} (ends : Ends L may q p) : Ends L may q (discard p) :=
  ends.map _

theorem ite {c : Prop} [Decidable c] {p p' : Parser α} (yes : Ends L may q p)
    (no : Ends L may q p') : Ends L may q (if c then p else p') :=
  fun s running => .ite (fun _ => yes s running) fun _ => no s running

/-- A look at the state reads nothing. -/
theorem look {p : Parser α} {f : α → Parser β} {look : ParserState → α}
    (same : ∀ s, p.run s = .ok (look s) s) (next : ∀ a, Ends L may q (f a)) :
    Ends L may q (p >>= f) :=
  fun s running => .look (same s) (next _ s running)

/-- Behind a token that was read, the rest only has to end. -/
theorem behind {p : Parser α} {s' : ParserState} (ends : Ends L may q p)
    (running : s'.Running L q) (moved : s.position < s'.position) :
    Goes L may p s' fun _ s'' => s.position < s''.position :=
  (ends s' running).mono fun _ _ reads _ => Nat.lt_of_lt_of_le moved reads.le

/-- A loop whose rounds turn. -/
theorem iterate {body : α → Parser (Round α β)} (round : ∀ a, Turns L may q (body a)) (a : α) :
    Ends L may q (iterate body a) := by
  intro s running
  refine .iterate (I := fun _ _ => True) running trivial ?_
  intro a s running _
  refine (round a s running).mono ?_
  intro r s' _ moved
  exact ⟨by cases r <;> trivial, moved⟩

end Ends

namespace Moves

/-- What follows a token that was read begins at a later one. -/
theorem bind {p : Parser α} {f : α → Parser β} (first : Moves L may q p)
    (next : ∀ a, Ends L may (q + 1) (f a)) : Moves L may q (p >>= f) := by
  intro s running more
  refine (first s running more).bind ?_
  intro a s' reads moved
  exact (next a).behind (running.moved reads moved) moved

theorem ite {c : Prop} [Decidable c] {p p' : Parser α} (yes : Moves L may q p)
    (no : Moves L may q p') : Moves L may q (if c then p else p') :=
  fun s running more => .ite (fun _ => yes s running more) fun _ => no s running more

theorem look {p : Parser α} {f : α → Parser β} {look : ParserState → α}
    (same : ∀ s, p.run s = .ok (look s) s) (next : ∀ a, Moves L may q (f a)) :
    Moves L may q (p >>= f) :=
  fun s running more => .look (same s) (next _ s running more)

/-- In front of a token that is left, the parser ends. -/
theorem goes {p : Parser α} (moves : Moves L may q p) (running : s.Running L q)
    (more : s.position < L.size) : Goes L may p s fun _ _ => True :=
  (moves s running more).mono fun _ _ _ _ => trivial

end Moves

namespace Turns

theorem finish (b : β) : Turns L may q (pure (.finish b : Round α β)) :=
  fun _ running => .pure running.on (fun _ never => nomatch never)

theorem ite {c : Prop} [Decidable c] {p p' : Parser (Round α β)} (yes : Turns L may q p)
    (no : Turns L may q p') : Turns L may q (if c then p else p') :=
  fun s running => .ite (fun _ => yes s running) fun _ => no s running

theorem look {γ : Type} {p : Parser γ} {f : γ → Parser (Round α β)} {look : ParserState → γ}
    (same : ∀ s, p.run s = .ok (look s) s) (next : ∀ a, Turns L may q (f a)) :
    Turns L may q (p >>= f) :=
  fun s running => .look (same s) (next _ s running)

/-- What comes before the round that turns. -/
theorem bind {γ : Type} {p : Parser γ} {f : γ → Parser (Round α β)} (first : Ends L may q p)
    (next : ∀ a, Turns L may q (f a)) : Turns L may q (p >>= f) := by
  intro s running
  refine (first s running).bind ?_
  intro a s' reads _
  refine (next a s' (running.reads reads)).mono ?_
  intro r s'' _ moved a' goesOn
  exact Nat.lt_of_le_of_lt reads.le (moved a' goesOn)

/-- Behind a token that was read, the rest of the round only has to end. -/
theorem of_ends {p : Parser (Round α β)} {s' : ParserState} (ends : Ends L may q p)
    (running : s'.Running L q) (moved : s.position < s'.position) :
    Goes L may p s' fun r s'' => ∀ a, r = .again a → s.position < s''.position :=
  (ends.behind running moved).mono fun _ _ _ moved _ _ => moved

/-- A round that begins by reading a token. -/
theorem of_moves {p : Parser (Round α β)} (moves : Moves L may q p) (running : s.Running L q)
    (more : s.position < L.size) :
    Goes L may p s fun r s' => ∀ a, r = .again a → s.position < s'.position :=
  (moves s running more).mono fun _ _ _ moved _ _ => moved

end Turns

/-! ## §3. Reading tokens. -/

/-- The parser never stops early. -/
def Sure (p : Parser α) : Prop :=
  ∀ s, ∃ a s', p.run s = .ok a s'

namespace Sure

theorem bind {p : Parser α} {f : α → Parser β} (first : Sure p) (next : ∀ a, Sure (f a)) :
    Sure (p >>= f) := by
  intro s
  obtain ⟨a, s', run⟩ := first s
  obtain ⟨b, s'', further⟩ := next a s'
  refine ⟨b, s'', ?_⟩
  rw [EStateM.run_bind, run]
  exact further

theorem ite {c : Prop} [Decidable c] {p p' : Parser α} (yes : Sure p) (no : Sure p') :
    Sure (if c then p else p') := by
  split
  · exact yes
  · exact no

end Sure

/-- What a parser ensures that never stops early. -/
theorem Goes.of_ensures {p : Parser α} {Q : α → ParserState → Prop} (sure : Sure p)
    (ensures : Ensures p s fun a s' => Reads L s s' ∧ Q a s') : Goes L may p s Q := by
  obtain ⟨a, s', run⟩ := sure s
  obtain ⟨reads, holds⟩ := ensures a s' run
  exact .of_run run reads holds

theorem Ends.of_passes {p : Parser α} (sure : Sure p) (passes : Passes L p) : Ends L may q p :=
  fun s running => .of_ensures sure ((passes s running.on).mono fun _ _ reads => ⟨reads, trivial⟩)

theorem skip_sure (count : Nat) : Sure (skip count) :=
  fun _ => ⟨_, _, rfl⟩

theorem complain_sure (c : Complaint) : Sure (complain c) :=
  fun _ => ⟨_, _, rfl⟩

theorem acceptOneOf_sure (ps : List Punct) : Sure (acceptOneOf ps) :=
  .bind (fun _ => ⟨_, _, rfl⟩) fun _ =>
    .ite ((skip_sure 1).bind fun _ _ => ⟨_, _, rfl⟩) fun _ => ⟨_, _, rfl⟩

theorem acceptWord_sure (word : Text) : Sure (acceptWord word) :=
  .bind (fun _ => ⟨_, _, rfl⟩) fun _ =>
    .ite ((skip_sure 1).bind fun _ _ => ⟨_, _, rfl⟩) fun _ => ⟨_, _, rfl⟩

theorem expect_sure (p : Punct) : Sure (expect p) :=
  (acceptOneOf_sure [p]).bind fun _ =>
    .ite (fun _ => ⟨_, _, rfl⟩)
      (.bind (fun _ => ⟨_, _, rfl⟩) fun _ => (complain_sure _).bind fun _ _ => ⟨_, _, rfl⟩)

theorem skip_ends (count : Nat) : Ends L may q (skip count) :=
  .of_passes (skip_sure count) (skip_passes count)

theorem complain_ends (c : Complaint) : Ends L may q (complain c) :=
  .of_passes (complain_sure c) (complain_passes c)

theorem accept_ends (p : Punct) : Ends L may q (accept p) :=
  .of_passes (acceptOneOf_sure [p]) (accept_passes p)

theorem acceptOneOf_ends (ps : List Punct) : Ends L may q (acceptOneOf ps) :=
  .of_passes (acceptOneOf_sure ps) (acceptOneOf_passes ps)

theorem acceptWord_ends (word : Text) : Ends L may q (acceptWord word) :=
  .of_passes (acceptWord_sure word) (acceptWord_passes word)

theorem expect_ends (p : Punct) : Ends L may q (expect p) :=
  .of_passes (expect_sure p) (expect_passes p)

theorem advance_ends : Ends L may q advance :=
  .look (fun _ => rfl) fun _ => (skip_ends 1).bind fun _ => .pure _

theorem close_ends (start : Nat) (form : Form Tree) : Ends L may q (close start form) :=
  .look (fun _ => rfl) fun _ => .pure _

/-- Reading tokens moves. -/
theorem skip_moves {count : Nat} (positive : 0 < count) : Moves L may q (skip count) := by
  intro s running more
  refine .of_run rfl (.skip running.on count) ?_
  rw [running.on.position_skip]
  omega

theorem advance_moves : Moves L may q advance :=
  .look (fun _ => rfl) fun _ => (skip_moves Nat.one_pos).bind fun _ => .pure _

/-- The token that is read is the next one. -/
theorem advance_goes (running : s.Running L q) (more : s.position < L.size) :
    Goes L may advance s fun t s' => t.start = L.startAt s.position ∧ s.position < s'.position := by
  refine .bind_current ((skip_moves Nat.one_pos s running more).bind fun _ _ reads moved => ?_)
  exact .pure reads.on ⟨running.on.start_current, moved⟩

/-- Passing a test moves, and failing it reads nothing. -/
theorem accept_goes (on : s.On L) (p : Punct) :
    Goes L may (accept p) s (Accepts L s (·.is p)) :=
  .of_ensures (acceptOneOf_sure [p]) ((accept_spec on p).mono fun _ _ h => ⟨h.reads, h⟩)

theorem acceptWord_goes (on : s.On L) (word : Text) :
    Goes L may (acceptWord word) s (Accepts L s (·.isTheWord word)) :=
  .of_ensures (acceptWord_sure word) ((acceptWord_spec on word).mono fun _ _ h => ⟨h.reads, h⟩)

theorem expect_goes (on : s.On L) (p : Punct) : Goes L may (expect p) s (Expects L s p) :=
  .of_ensures (expect_sure p) ((expect_spec on p).mono fun _ _ h => ⟨h.reads, h⟩)

section Branches

variable {yes no : Parser β}

/-- **Behind a test that was passed the branch begins at a later token,** as the test
reads one. -/
theorem Ends.branch {p : Parser Bool}
    (test : ∀ s, s.Running L q →
      Goes L may p s fun found s' => found = true → s.position < s'.position)
    (found : Ends L may (q + 1) yes) (absent : Ends L may q no) :
    Ends L may q (do if ← p then yes else no) := by
  intro s running
  refine (test s running).bind ?_
  intro isFound s' reads moved
  refine .ite (fun isFound => ?_) fun _ => absent s' (running.reads reads)
  exact found s' (running.moved reads (moved isFound))

theorem Ends.accept_then {p : Punct} (found : Ends L may (q + 1) yes) (absent : Ends L may q no) :
    Ends L may q (do if ← accept p then yes else no) :=
  .branch (fun _ running => (accept_goes running.on p).mono fun _ _ _ accepts =>
    accepts.lt_position) found absent

theorem Ends.acceptWord_then {word : Text} (found : Ends L may (q + 1) yes)
    (absent : Ends L may q no) : Ends L may q (do if ← acceptWord word then yes else no) :=
  .branch (fun _ running => (acceptWord_goes running.on word).mono fun _ _ _ accepts =>
    accepts.lt_position) found absent

theorem Ends.expect_then {p : Punct} (found : Ends L may (q + 1) yes) (absent : Ends L may q no) :
    Ends L may q (do if ← expect p then yes else no) :=
  .branch (fun _ running => (expect_goes running.on p).mono fun _ _ _ expects =>
    expects.lt_position) found absent

/-- The keyword behind an optional word is read. -/
theorem Moves.skip_behind {p : Parser α} {f : α → Parser β}
    (first : ∀ s, s.Running L q → s.position < L.size →
      Goes L may p s fun _ s' => s.position < (s'.skip 1).position)
    (next : ∀ a, Ends L may (q + 1) (f a)) :
    Moves L may q (do let a ← p; skip 1; f a) := by
  intro s running more
  refine (first s running more).bind ?_
  intro a s₁ reads moved
  refine .bind (P := fun _ s' => s.position < s'.position)
    (.of_run rfl (.skip reads.on 1) moved) ?_
  intro _ s₂ reads₂ moved
  exact (next a).behind (running.moved (reads.trans reads₂) moved) moved

theorem Moves.acceptWord_skip {word : Text} {f : Bool → Parser β}
    (next : ∀ found, Ends L may (q + 1) (f found)) :
    Moves L may q (do let found ← acceptWord word; skip 1; f found) :=
  .skip_behind (fun _ running more => (acceptWord_goes running.on word).mono fun _ _ _ accepts =>
    accepts.lt_position_skip more) next

theorem Moves.discard_acceptWord_skip {word : Text} {p : Parser β} (next : Ends L may (q + 1) p) :
    Moves L may q (do discard (acceptWord word); skip 1; p) :=
  .skip_behind (fun _ running more => (acceptWord_goes running.on word).discard fun _ _ accepts =>
    accepts.lt_position_skip more) fun _ => next

/-- A round that goes on behind a test that was passed. -/
theorem Turns.branch {p : Parser Bool} {test : Token → Bool} {yes no : Parser (Round α β)}
    (running : s.Running L q) (goes : Goes L may p s (Accepts L s test))
    (found : Ends L may (q + 1) yes)
    (absent : Goes L may no s fun r s' => ∀ a, r = .again a → s.position < s'.position) :
    Goes L may (do if ← p then yes else no) s
      fun r s' => ∀ a, r = .again a → s.position < s'.position := by
  refine goes.bind ?_
  intro isFound s' reads accepts
  refine .ite (fun isFound => ?_) fun notFound => ?_
  · have moved := accepts.lt_position isFound
    exact Turns.of_ends found (running.moved reads moved) moved
  · obtain ⟨rfl, _⟩ := accepts.no (Bool.eq_false_iff.mpr notFound)
    exact absent

theorem Turns.accept_then {p : Punct} {yes no : Parser (Round α β)}
    (found : Ends L may (q + 1) yes) (absent : Turns L may q no) :
    Turns L may q (do if ← accept p then yes else no) :=
  fun s running => Turns.branch running (accept_goes running.on p) found (absent s running)

theorem Turns.acceptWord_then {word : Text} {yes no : Parser (Round α β)}
    (running : s.Running L q) (found : Ends L may (q + 1) yes)
    (absent : Goes L may no s fun r s' => ∀ a, r = .again a → s.position < s'.position) :
    Goes L may (do if ← acceptWord word then yes else no) s
      fun r s' => ∀ a, r = .again a → s.position < s'.position :=
  Turns.branch running (acceptWord_goes running.on word) found absent

end Branches

end Parser

end StackLint
