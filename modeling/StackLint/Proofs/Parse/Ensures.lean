/-
  StackLint.Proofs.Parse.Ensures
  ──────────────────────────────
  **WHAT A PARSER ENSURES.**

  `Parser.Ensures p s Q` says that whenever `p` ends normally from the state
  `s`, its value and the state behind it satisfy `Q`.  A parser that stops
  early ensures everything.  There is one rule for each way to build a parser;
  a loop keeps what each of its rounds keeps.
-/
import StackLint.Parse.State

namespace StackLint

namespace Parser

/-- Whenever the parser ends normally from the state `s`, the value and the
state behind it satisfy `Q`. -/
def Ensures (p : Parser α) (s : ParserState) (Q : α → ParserState → Prop) : Prop :=
  ∀ a s', p.run s = .ok a s' → Q a s'

variable {α β γ : Type} {s : ParserState}

/-! ## §1. Sequences. -/

theorem Ensures.mono {p : Parser α} {P Q : α → ParserState → Prop} (h : Ensures p s P)
    (weaker : ∀ a s', P a s' → Q a s') : Ensures p s Q := by
  intro a s' run
  exact weaker a s' (h a s' run)

theorem Ensures.and {p : Parser α} {P Q : α → ParserState → Prop} (h : Ensures p s P)
    (h' : Ensures p s Q) : Ensures p s fun a s' => P a s' ∧ Q a s' :=
  fun a s' run => ⟨h a s' run, h' a s' run⟩

theorem Ensures.pure {a : α} {Q : α → ParserState → Prop} (h : Q a s) :
    Ensures (pure a) s Q := by
  intro b s' run
  cases run
  exact h

/-- **One parser after another.** -/
theorem Ensures.bind {p : Parser α} {f : α → Parser β} {P : α → ParserState → Prop}
    {Q : β → ParserState → Prop} (h : Ensures p s P)
    (next : ∀ a s', P a s' → Ensures (f a) s' Q) : Ensures (p >>= f) s Q := by
  intro b s' run
  -- How the first part ends decides whether there is a second one.
  cases first : p.run s with
  | error e s₁ =>
      have failed : (p >>= f).run s = .error e s₁ := by
        show (p >>= f) s = _
        simp only [Bind.bind, EStateM.bind]
        rw [show p s = .error e s₁ from first]
      rw [failed] at run
      cases run
  | ok a s₁ =>
      have goesOn : (p >>= f).run s = (f a).run s₁ := by
        show (p >>= f) s = _
        simp only [Bind.bind, EStateM.bind]
        rw [show p s = .ok a s₁ from first]
        rfl
      rw [goesOn] at run
      exact next a s₁ (h a s₁ first) b s' run

/-- Nothing is known of what a parser does. -/
theorem Ensures.any (p : Parser α) (s : ParserState) : Ensures p s fun _ _ => True :=
  fun _ _ _ => trivial

/-- Whatever is done first, what stands behind it decides. -/
theorem Ensures.behind {p : Parser α} {k : α → Parser β} {Q : β → ParserState → Prop}
    (next : ∀ a s, Ensures (k a) s Q) : Ensures (p >>= k) s Q :=
  (Ensures.any p s).bind fun a s₁ _ => next a s₁

theorem Ensures.map {p : Parser α} {f : α → β} {Q : β → ParserState → Prop}
    (h : Ensures p s fun a s' => Q (f a) s') : Ensures (f <$> p) s Q := by
  rw [← bind_pure_comp]
  exact h.bind fun a s' q => .pure q

theorem Ensures.discard {p : Parser α} {P : α → ParserState → Prop} {Q : Unit → ParserState → Prop}
    (h : Ensures p s P) (weaker : ∀ a s', P a s' → Q () s') : Ensures (discard p) s Q := by
  unfold Functor.discard
  exact Ensures.map (h.mono weaker)

theorem Ensures.throw {e : Halt} {Q : α → ParserState → Prop} :
    Ensures (throw e) s Q := by
  intro a s' run
  cases run

theorem Ensures.ite {c : Prop} [Decidable c] {p q : Parser α} {Q : α → ParserState → Prop}
    (yes : c → Ensures p s Q) (no : ¬ c → Ensures q s Q) :
    Ensures (if c then p else q) s Q := by
  split
  · next h => exact yes h
  · next h => exact no h

/-- Something may be done before the rest. -/
theorem Ensures.ite_then {c : Prop} [Decidable c] {act : Parser Unit} {rest : Unit → Parser β}
    {P : ParserState → Prop} {Q : β → ParserState → Prop}
    (yes : c → Ensures act s fun _ s' => P s') (no : ¬ c → P s)
    (next : ∀ s', P s' → Ensures (rest ()) s' Q) :
    Ensures (if c then act >>= rest else rest ()) s Q := by
  split
  · next h => exact (yes h).bind fun _ s' => next s'
  · next h => exact next s (no h)

/-- Something may be left out before the rest. -/
theorem Ensures.ite_else {c : Prop} [Decidable c] {act : Parser Unit} {rest : Unit → Parser β}
    {P : ParserState → Prop} {Q : β → ParserState → Prop} (yes : c → P s)
    (no : ¬ c → Ensures act s fun _ s' => P s') (next : ∀ s', P s' → Ensures (rest ()) s' Q) :
    Ensures (if c then rest () else act >>= rest) s Q := by
  split
  · next h => exact next s (yes h)
  · next h => exact (no h).bind fun _ s' => next s'

/-! ## §2. The state. -/

theorem Ensures.modify {f : ParserState → ParserState} {Q : Unit → ParserState → Prop}
    (h : Q () (f s)) : Ensures (modify f : Parser Unit) s Q := by
  intro a s' run
  cases run
  exact h

/-- What is read off the state is known. -/
theorem Ensures.look {p : Parser α} {a : α} (same : p.run s = .ok a s) {f : α → Parser β}
    {Q : β → ParserState → Prop} (h : Ensures (f a) s Q) : Ensures (p >>= f) s Q := by
  refine Ensures.bind (P := fun b s' => b = a ∧ s' = s) ?_ ?_
  · intro b s' run
    rw [same] at run
    cases run
    exact ⟨rfl, rfl⟩
  · rintro _ _ ⟨rfl, rfl⟩
    exact h

theorem Ensures.bind_get {f : ParserState → Parser β} {Q : β → ParserState → Prop}
    (h : Ensures (f s) s Q) : Ensures (MonadState.get >>= f) s Q :=
  .look rfl h

theorem Ensures.bind_current {f : Token → Parser β} {Q : β → ParserState → Prop}
    (h : Ensures (f s.current) s Q) : Ensures (current >>= f) s Q :=
  .look rfl h

theorem Ensures.bind_peek {count : Nat} {f : Token → Parser β} {Q : β → ParserState → Prop}
    (h : Ensures (f (s.peek count)) s Q) : Ensures (peek count >>= f) s Q :=
  .look rfl h

theorem Ensures.bind_position {f : Nat → Parser β} {Q : β → ParserState → Prop}
    (h : Ensures (f s.position) s Q) : Ensures (position >>= f) s Q :=
  .look rfl h

theorem Ensures.bind_lastStop {f : Nat → Parser β} {Q : β → ParserState → Prop}
    (h : Ensures (f s.lastStop) s Q) : Ensures (lastStop >>= f) s Q :=
  .look rfl h

/-- The node that is closed ends where the last token read does. -/
theorem Ensures.close {start : Nat} {form : Form Tree} {Q : Tree → ParserState → Prop}
    (h : Q (.mk ⟨start, s.lastStop⟩ form) s) : Ensures (close start form) s Q :=
  .bind_lastStop (.pure h)

/-! ## §3. Loops. -/

/-- What a loop needs of the end of a round. -/
def Round.Keeps (I : α → ParserState → Prop) (Q : β → ParserState → Prop) (s : ParserState) :
    Round α β → Prop
  | .again a => I a s
  | .finish b => Q b s

/-- **A loop keeps what each of its rounds keeps.** -/
theorem Ensures.iterateFor {body : α → Parser (Round α β)} {I : α → ParserState → Prop}
    {Q : β → ParserState → Prop}
    (round : ∀ a s, I a s → Ensures (body a) s fun r s' => r.Keeps I Q s') (rounds : Nat)
    {a : α} (start : I a s) : Ensures (iterateFor body rounds a) s Q := by
  -- Without rounds left the loop fails, which ensures everything.
  induction rounds generalizing a s with
  | zero => exact .throw
  | succ rounds ih =>
      rw [Parser.iterateFor]
      refine .bind_position ?_
      refine (round a s start).bind ?_
      intro r s' kept
      cases r with
      | again a =>
          refine .bind_position ?_
          exact .ite (fun _ => .throw) fun _ => ih kept
      | finish b => exact .pure kept

theorem Ensures.iterate {body : α → Parser (Round α β)} {I : α → ParserState → Prop}
    {Q : β → ParserState → Prop} {a : α} (start : I a s)
    (round : ∀ a s, I a s → Ensures (body a) s fun r s' => r.Keeps I Q s') :
    Ensures (iterate body a) s Q := by
  unfold Parser.iterate
  refine .bind_get ?_
  exact .iterateFor round _ start

end Parser

end StackLint
