/-
  StackLint.Proofs.Token.Respelled
  ────────────────────────────────
  **TOKENS THAT GET OTHER NAMES.**

  Several fixes are made at once, each of which writes another name, or another
  string, in the place of one token, with the same first character.  Then the tokens
  of the fixed text are those of the text, of the same kinds and in the same order:
  those that were replaced have other names, and all of them are moved by what the
  fixes in front of them add or take.
-/
import StackLint.Proofs.Fixing.Substitution
import StackLint.Proofs.Token.Lossless
import StackLint.Proofs.Token.Seam
import StackLint.Proofs.View.Renaming

namespace StackLint

namespace Fix

/-! ## §1. Where offsets come to. -/

/-- How much of the text in front of an offset the fixes replace. -/
def oldLength (fixes : List Fix) (offset : Nat) : Nat :=
  ((fixes.filter (·.stop ≤ offset)).map fun f => f.stop - f.start).sum

/-- How much they put in its place. -/
def newLength (fixes : List Fix) (offset : Nat) : Nat :=
  ((fixes.filter (·.stop ≤ offset)).map fun f => f.newCode.length).sum

/-- **Where an offset comes to** when the fixes are made: those that end in front of it
move it. -/
def shifted (fixes : List Fix) (offset : Nat) : Nat :=
  offset + newLength fixes offset - oldLength fixes offset

variable {f : Fix} {fixes others : List Fix} {offset : Nat}

/-- Nothing moves in front of the fixes. -/
theorem shifted_of_lt (behind : ∀ f ∈ fixes, offset < f.stop) : shifted fixes offset = offset := by
  have none : fixes.filter (·.stop ≤ offset) = [] := by
    refine List.filter_eq_nil_iff.mpr fun f inside isBefore => ?_
    exact absurd (of_decide_eq_true isBefore) (Nat.not_le_of_lt (behind f inside))
  unfold shifted newLength oldLength
  rw [none]
  rfl

/-- The order in which the fixes are listed is of no account. -/
theorem shifted_perm (same : fixes.Perm others) (offset : Nat) :
    shifted fixes offset = shifted others offset := by
  have before := same.filter fun f => decide (f.stop ≤ offset)
  have old := (before.map fun f => f.stop - f.start).sum_eq
  have new := (before.map fun f => f.newCode.length).sum_eq
  unfold shifted newLength oldLength
  rw [old, new]

theorem oldLength_cons (isBefore : f.stop ≤ offset) :
    oldLength (f :: fixes) offset = f.stop - f.start + oldLength fixes offset := by
  unfold oldLength
  rw [List.filter_cons, if_pos (decide_eq_true isBefore), List.map_cons, List.sum_cons]

theorem newLength_cons (isBefore : f.stop ≤ offset) :
    newLength (f :: fixes) offset = f.newCode.length + newLength fixes offset := by
  unfold newLength
  rw [List.filter_cons, if_pos (decide_eq_true isBefore), List.map_cons, List.sum_cons]

/-- Fixes that follow one another replace no more than there is. -/
theorem oldLength_le {cursor : Nat} (follow : fixes.Pairwise fun f g => f.stop ≤ g.start)
    (behind : ∀ f ∈ fixes, cursor ≤ f.start) (le : cursor ≤ offset) :
    cursor + oldLength fixes offset ≤ offset := by
  induction fixes generalizing cursor with
  | nil => exact le
  | cons f fixes ih =>
      obtain ⟨later, follow⟩ := List.pairwise_cons.mp follow
      by_cases isBefore : f.stop ≤ offset
      · have others := ih follow later isBefore
        have start := behind f (List.mem_cons_self ..)
        have width := f.start_le_stop
        rw [oldLength_cons isBefore]
        omega
      · unfold oldLength at ih ⊢
        rw [List.filter_cons, if_neg (by simpa using isBefore)]
        exact ih follow (fun g inside => behind g (List.mem_cons_of_mem _ inside)) le

/-- **One fix more,** in front of all the others. -/
theorem shifted_cons (follow : (f :: fixes).Pairwise fun f g => f.stop ≤ g.start)
    (isBefore : f.stop ≤ offset) :
    shifted (f :: fixes) offset = shifted fixes offset + (f.start + f.newCode.length) - f.stop := by
  obtain ⟨later, follow⟩ := List.pairwise_cons.mp follow
  have fits := oldLength_le follow later isBefore
  have width := f.start_le_stop
  unfold shifted
  rw [oldLength_cons isBefore, newLength_cons isBefore]
  omega

/-- **What follows a place begins as before,** if all new codes do. -/
theorem head?_interleave {content : Text} {cursor : Nat}
    (begins : ∀ f ∈ fixes, f.newCode ≠ [] ∧ f.newCode.head? = (content.drop f.start).head?)
    (behind : ∀ f ∈ fixes, cursor ≤ f.start) :
    (interleave content cursor fixes).head? = (content.drop cursor).head? := by
  cases fixes with
  | nil => rfl
  | cons f fixes =>
      obtain ⟨nonempty, same⟩ := begins f (List.mem_cons_self ..)
      obtain ⟨c, y, isCode⟩ := List.exists_cons_of_ne_nil nonempty
      rw [interleave, List.append_assoc]
      rcases Nat.eq_or_lt_of_le (behind f (List.mem_cons_self ..)) with rfl | before
      · rw [Text.slice, Nat.sub_self, List.take_zero, List.nil_append, ← same, isCode]
        rfl
      · cases left : content.drop cursor with
        | nil =>
            have short := List.drop_eq_nil_iff.mp left
            rw [isCode, List.drop_eq_nil_of_le (by omega)] at same
            cases same
        | cons d others =>
            obtain ⟨k, isWidth⟩ := Nat.exists_eq_add_of_lt before
            have width : f.start - cursor = k + 1 := by omega
            rw [Text.slice, left, width, List.take_succ_cons]
            rfl

end Fix

/-! ## §2. Other names. -/

/-- The lexeme with another name, or another text in the quotes. -/
def Lexeme.respell (spell : Text → Text) : Lexeme → Lexeme
  | .word name => .word (spell name)
  | .string quote value => .string quote (spell value)
  | l => l

/-- **The token in the fixed text:** where a fix begins with the token it has its other name. -/
def Token.respelled (spell : Text → Text) (fixes : List Fix) (t : Token) : Token where
  lexeme := if ∃ f ∈ fixes, f.start = t.start then t.lexeme.respell spell else t.lexeme
  start := Fix.shifted fixes t.start
  stop := Fix.shifted fixes t.stop
  newlineBefore := t.newlineBefore

/-- **The fix writes the token in another way:** its new code begins as the token does, and
is read as the token with its other name in front of all that begins as the text behind
the token. -/
inductive Fix.Respells (spell : Text → Text) (text : Text) (f : Fix) (t : Token) : Prop where
  | mk {c : CodePoint} {x y : Text} (start : f.start = t.start) (stop : f.stop = t.stop)
      (naming : t.lexeme.isNaming = true) (left : text.drop f.start = c :: (x ++ text.drop f.stop))
      (newCode : f.newCode = c :: y) (replaceable : Scan.Replaceable c x c y)
      (reads : ∀ z : Text, z.head? = (text.drop f.stop).head? → ∀ braces previous,
        Scan.lexeme braces previous c (y ++ z) = .ok ⟨t.lexeme.respell spell, y.length, braces⟩)
      (slashes : Scan.regexAllowed (some (t.lexeme.respell spell))
        = Scan.regexAllowed (some t.lexeme))

section

variable {spell : Text → Text} {text : Text} {f : Fix} {fixes : List Fix} {t : Token}
  {tokens before after : List Token}

theorem Fix.Respells.notEnd (respells : f.Respells spell text t) : t.lexeme ≠ .endOfText := by
  obtain ⟨_, _, naming⟩ := respells
  intro isEnd
  rw [isEnd] at naming
  cases naming

theorem Fix.Respells.head? (respells : f.Respells spell text t) :
    f.newCode ≠ [] ∧ f.newCode.head? = (text.drop f.start).head? := by
  obtain ⟨_, _, _, left, newCode⟩ := respells
  rw [newCode, left]
  exact ⟨List.cons_ne_nil _ _, rfl⟩

theorem Token.respelled_nil (t : Token) : t.respelled spell [] = t := by
  unfold respelled
  rw [if_neg fun some => nomatch some]
  rfl

/-- A token in front of a place stays as it is, if the fixes stand behind the place. -/
theorem Token.respelled_of_le {place : Nat} (front : t.start < place) (upright : t.start ≤ t.stop)
    (le : t.stop ≤ place) (behind : ∀ f ∈ fixes, place ≤ f.start ∧ f.start < f.stop) :
    t.respelled spell fixes = t := by
  have ends : ∀ f ∈ fixes, t.stop < f.stop := fun f inside =>
    Nat.lt_of_le_of_lt (Nat.le_trans le (behind f inside).1) (behind f inside).2
  have noFix : ¬ ∃ f ∈ fixes, f.start = t.start := by
    rintro ⟨f, inside, same⟩
    exact absurd same (Nat.ne_of_gt (Nat.lt_of_lt_of_le front (behind f inside).1))
  unfold respelled
  rw [if_neg noFix, Fix.shifted_of_lt ends,
    Fix.shifted_of_lt fun f inside => Nat.lt_of_le_of_lt upright (ends f inside)]

/-- A token behind the first fix is moved by it. -/
theorem Token.respelled_cons (follow : (f :: fixes).Pairwise fun f g => f.stop ≤ g.start)
    (width : f.start < f.stop) (upright : t.start ≤ t.stop) (isBefore : f.stop ≤ t.start) :
    t.respelled spell (f :: fixes)
      = (t.respelled spell fixes).moved f.stop (f.start + f.newCode.length) := by
  have same : (∃ g ∈ f :: fixes, g.start = t.start) ↔ ∃ g ∈ fixes, g.start = t.start := by
    rw [List.exists_mem_cons_iff]
    exact or_iff_right (by omega)
  unfold respelled moved
  simp only [same, Fix.shifted_cons follow isBefore,
    Fix.shifted_cons follow (Nat.le_trans isBefore upright)]

/-! ## §3. All fixes at once. -/

namespace Scan

/-- Tokens do not end before they begin. -/
theorem Cut.start_le_stop {pending : Bool} {offset : Nat} (cut : Cut pending offset text tokens) :
    ∀ u ∈ tokens, u.start ≤ u.stop := by
  induction cut with
  | last _ _ _ stop =>
      refine List.forall_mem_singleton.mpr ?_
      exact Nat.le_of_eq stop.symm
  | token _ _ _ _ stop _ _ ih =>
      refine List.forall_mem_cons.mpr ⟨?_, ih⟩
      rw [stop]
      exact Nat.le_add_right _ _

/-- **The tokens around a token** that is not the last one. -/
structure Order (text : Text) (before : List Token) (t : Token) (after : List Token) : Prop where
  width : t.start < t.stop
  inside : t.stop ≤ text.length
  before : ∀ u ∈ before, u.start < t.start ∧ u.start ≤ u.stop ∧ u.stop ≤ t.start
  after : ∀ u ∈ after, t.stop ≤ u.start ∧ u.start ≤ u.stop

theorem order_of_tokenize (run : tokenize text = .ok (before ++ t :: after))
    (notEnd : t.lexeme ≠ .endOfText) : Order text before t after := by
  have cut := cut_of_tokenize run
  have upright := cut.start_le_stop
  have inOrder := cut.pairwise
  rw [List.pairwise_append, List.pairwise_cons] at inOrder
  obtain ⟨_, ⟨later, _⟩, earlier⟩ := inOrder
  have more : after ≠ [] := by
    obtain ⟨_, _, _, _, _, way⟩ := exists_way run notEnd
    exact (cut_of_tokensFrom way.later).1.ne_nil
  obtain ⟨place, _, _⟩ := cut.behind before more
  refine ⟨place.nonempty, place.inside, fun u inside => ?_, fun u inside => ?_⟩
  · have stop := earlier u inside t (List.mem_cons_self ..)
    obtain ⟨first, second, rfl⟩ := List.append_of_mem inside
    rw [List.append_assoc, List.cons_append] at cut
    obtain ⟨place, _, _⟩ := cut.behind first
      (List.append_ne_nil_of_right_ne_nil second (List.cons_ne_nil t after))
    exact ⟨Nat.lt_of_lt_of_le place.nonempty stop, Nat.le_of_lt place.nonempty, stop⟩
  · exact ⟨later u inside,
      upright u (List.mem_append_right _ (List.mem_cons_of_mem _ inside))⟩

end Scan

/-- The tokens in front of a token are in front of the fixes that are not. -/
theorem Scan.Order.map_before (order : Scan.Order text before t after)
    (behind : ∀ f ∈ fixes, t.start ≤ f.start ∧ f.start < f.stop) :
    before.map (Token.respelled spell fixes) = before := by
  refine (List.map_congr_left fun u isBefore => ?_).trans (List.map_id' before)
  obtain ⟨front, upright, le⟩ := order.before u isBefore
  exact u.respelled_of_le front upright le behind

/-- One fix, in a text in which others have been made behind it. -/
theorem Fix.Respells.tokenize_apply {fixed : Text} (respells : f.Respells spell text t)
    (inside : f.stop ≤ text.length) (same : fixed.take f.stop = text.take f.stop)
    (begins : (fixed.drop f.stop).head? = (text.drop f.stop).head?)
    (run : tokenize fixed = .ok (before ++ t :: after)) :
    tokenize (f.apply fixed)
      = .ok (before ++ ⟨t.lexeme.respell spell, f.start, f.start + f.newCode.length, t.newlineBefore⟩
          :: after.map (Token.moved f.stop (f.start + f.newCode.length))) := by
  obtain @⟨c, x, y, start, stop, naming, left, newCode, replaceable, reads, slashes⟩ := respells
  -- Up to its end the text is as it was, so the token still stands there.
  have old : fixed.drop f.start = c :: x ++ fixed.drop f.stop := by
    have isOld : fixed.slice f.start f.stop = text.slice f.start f.stop := by
      unfold Text.slice
      rw [← List.drop_take, same, List.drop_take]
    rw [← List.cons_append] at left
    rw [Text.drop_eq_of_slice f.start_le_stop isOld, Text.slice, left]
    congr 1
    refine List.take_left' ?_
    have width := Text.stop_eq_of_drop f.start_le_stop inside left
    rw [width, Nat.add_sub_cancel_left]
  rw [start, stop] at old
  rw [stop] at begins reads
  have exchanged := tokenize_exchange run naming old (replaceable.seam _)
    (replaceable.trivia?_eq_none _) (reads _ begins) slashes
  unfold Fix.apply
  rw [newCode, start, stop, exchanged, List.length_cons, Nat.add_assoc, Nat.add_assoc,
    Nat.add_comm 1]

/-- The token of the first fix. -/
theorem Token.respelled_self (respells : f.Respells spell text t) (width : t.start < t.stop)
    (follow : (f :: fixes).Pairwise fun f g => f.stop ≤ g.start) (wide : ∀ g ∈ fixes, g.start < g.stop) :
    t.respelled spell (f :: fixes)
      = ⟨t.lexeme.respell spell, f.start, f.start + f.newCode.length, t.newlineBefore⟩ := by
  obtain ⟨start, stop⟩ := respells
  have later := (List.pairwise_cons.mp follow).1
  have isFirst : ∀ g ∈ f :: fixes, t.start < g.stop := by
    refine List.forall_mem_cons.mpr ⟨stop ▸ width, fun g inside => ?_⟩
    have one := later g inside
    have two := wide g inside
    omega
  have isStop : Fix.shifted (f :: fixes) t.stop = f.start + f.newCode.length := by
    rw [Fix.shifted_cons follow (Nat.le_of_eq stop), Fix.shifted_of_lt, ← stop,
      Nat.add_sub_cancel_left]
    intro g inside
    have one := later g inside
    have two := wide g inside
    omega
  unfold respelled
  rw [if_pos ⟨f, List.mem_cons_self .., start⟩, Fix.shifted_of_lt isFirst, isStop, start]

/-- A fix that writes a token in another way lies in the text. -/
theorem Fix.Respells.inside (respells : f.Respells spell text t) (run : tokenize text = .ok tokens)
    (isToken : t ∈ tokens) : f.start < f.stop ∧ f.stop ≤ text.length := by
  obtain ⟨before, after, rfl⟩ := List.append_of_mem isToken
  have order := Scan.order_of_tokenize run respells.notEnd
  obtain ⟨start, stop⟩ := respells
  rw [start, stop]
  exact ⟨order.width, order.inside⟩

/-- Fixes behind a place leave the text up to there as it is. -/
theorem Fix.foldr_apply_front {place : Nat} (le : place ≤ text.length)
    (behind : ∀ f ∈ fixes, place ≤ f.start ∧ f.stop ≤ text.length)
    (follow : fixes.Pairwise fun f g => f.stop ≤ g.start) :
    (fixes.foldr (fun f fixed => f.apply fixed) text).take place = text.take place
      ∧ (fixes.foldr (fun f fixed => f.apply fixed) text).drop place
        = interleave text place fixes := by
  have length : (text.take place).length = place := by
    rw [List.length_take, Nat.min_eq_left le]
  rw [foldr_apply_eq text fixes place le behind follow]
  exact ⟨List.take_left' length, List.drop_left' length⟩

/-- **Fixes one after the other,** the last one first. -/
theorem tokenize_foldr (run : tokenize text = .ok tokens)
    (follow : fixes.Pairwise fun f g => f.stop ≤ g.start)
    (each : ∀ f ∈ fixes, ∃ t ∈ tokens, f.Respells spell text t) :
    tokenize (fixes.foldr (fun f fixed => f.apply fixed) text)
      = .ok (tokens.map (Token.respelled spell fixes)) := by
  -- The first fix is made last, in a text whose tokens up to it have not been moved.
  induction fixes with
  | nil =>
      have same : tokens.map (Token.respelled spell []) = tokens :=
        (List.map_congr_left fun t _ => t.respelled_nil).trans (List.map_id' tokens)
      rw [same]
      exact run
  | cons f fixes ih =>
      obtain ⟨later, follow'⟩ := List.pairwise_cons.mp follow
      obtain ⟨⟨t, isToken, respells⟩, each'⟩ := List.forall_mem_cons.mp each
      have others := ih follow' each'
      have inside := respells.inside run isToken
      have inside' : ∀ g ∈ fixes, g.start < g.stop ∧ g.stop ≤ text.length := fun g isFix =>
        (each' g isFix).elim fun u found => found.2.inside run found.1
      obtain ⟨before, after, rfl⟩ := List.append_of_mem isToken
      have order := Scan.order_of_tokenize run respells.notEnd
      obtain ⟨start, stop⟩ := id respells
      -- The later fixes leave the text as it is up to the end of this one.
      obtain ⟨same, behind⟩ := Fix.foldr_apply_front inside.2
        (fun g isFix => ⟨later g isFix, (inside' g isFix).2⟩) follow'
      have begins := (congrArg List.head? behind).trans (Fix.head?_interleave
        (fun g isFix => (each' g isFix).elim fun _ found => found.2.head?) later)
      -- So they leave the tokens up to there.
      have behind : ∀ g ∈ f :: fixes, t.start ≤ g.start ∧ g.start < g.stop := by
        refine List.forall_mem_cons.mpr ⟨⟨Nat.le_of_eq start.symm, inside.1⟩, fun g isFix => ?_⟩
        have le := later g isFix
        exact ⟨by omega, (inside' g isFix).1⟩
      have unmoved : before.map (Token.respelled spell fixes) = before :=
        order.map_before fun g isFix => behind g (List.mem_cons_of_mem f isFix)
      have unmovedSelf : t.respelled spell fixes = t :=
        t.respelled_of_le order.width (Nat.le_of_lt order.width) (Nat.le_refl _) fun g isFix =>
          ⟨stop ▸ later g isFix, (inside' g isFix).1⟩
      rw [List.map_append, List.map_cons, unmoved, unmovedSelf] at others
      have moved : (after.map (Token.respelled spell fixes)).map
          (Token.moved f.stop (f.start + f.newCode.length))
          = after.map (Token.respelled spell (f :: fixes)) := by
        rw [List.map_map]
        refine List.map_congr_left fun u isAfter => ?_
        obtain ⟨le, upright⟩ := order.after u isAfter
        exact (u.respelled_cons follow inside.1 upright (stop ▸ le)).symm
      rw [List.foldr_cons, respells.tokenize_apply inside.2 same begins others, moved,
        List.map_append, List.map_cons, order.map_before behind,
        Token.respelled_self respells order.width follow fun g isFix => (inside' g isFix).1]

/-- The order in which the fixes are listed is of no account. -/
theorem Token.respelled_perm {others : List Fix} (same : fixes.Perm others) (t : Token) :
    t.respelled spell fixes = t.respelled spell others := by
  unfold respelled
  simp only [same.mem_iff, Fix.shifted_perm same]

/-- Of two tokens the one that begins first ends before the other begins. -/
theorem stop_le_start_of_mem {u : Token} (run : tokenize text = .ok tokens) (isToken : t ∈ tokens)
    (isToken' : u ∈ tokens) (notEnd : t.lexeme ≠ .endOfText) (first : t.start < u.start) :
    t.stop ≤ u.start := by
  obtain ⟨before, after, rfl⟩ := List.append_of_mem isToken
  have order := Scan.order_of_tokenize run notEnd
  rcases List.mem_append.mp isToken' with isBefore | isAfter
  · have place := order.before u isBefore
    omega
  · rcases List.mem_cons.mp isAfter with rfl | isAfter
    · exact absurd first (Nat.lt_irrefl _)
    · exact (order.after u isAfter).1

/-- Fixes that write different tokens in another way do not overlap. -/
theorem Fix.Respells.overlaps_eq_false {g : Fix} {u : Token} (respells : f.Respells spell text t)
    (respells' : g.Respells spell text u) (run : tokenize text = .ok tokens) (isToken : t ∈ tokens)
    (isToken' : u ∈ tokens) (differ : f.start ≠ g.start) : f.overlaps g = false := by
  have wide := (respells.inside run isToken).1
  have wide' := (respells'.inside run isToken').1
  have notEnd := respells.notEnd
  have notEnd' := respells'.notEnd
  obtain ⟨start, stop⟩ := respells
  obtain ⟨start', stop'⟩ := respells'
  have apart : f.stop ≤ g.start ∨ g.stop ≤ f.start := by
    rw [start, start'] at differ
    rw [start, start', stop, stop']
    exact (Nat.lt_or_gt_of_ne differ).imp (stop_le_start_of_mem run isToken isToken' notEnd)
      (stop_le_start_of_mem run isToken' isToken notEnd')
  unfold overlaps isInsertion
  simp only [Nat.ne_of_lt wide, Nat.ne_of_lt wide', beq_eq_false_iff_ne.mpr, ne_eq, not_false_eq_true,
    Bool.false_and, Bool.false_eq_true, if_false, Bool.and_eq_false_iff, decide_eq_false_iff_not,
    Nat.not_lt]
  exact apart.symm

/-- **All the fixes at once.**  Where each of them writes another token in another way, the tokens
of the fixed text are those of the text, written in the other way and moved. -/
theorem tokenize_applyAll (run : tokenize text = .ok tokens)
    (each : ∀ f ∈ fixes, ∃ t ∈ tokens, f.Respells spell text t)
    (differ : fixes.Pairwise fun f g => f.start ≠ g.start) :
    tokenize (Fix.applyAll fixes text) = .ok (tokens.map (Token.respelled spell fixes)) := by
  have apart : Fix.Apart fixes := differ.imp_of_mem fun {f g} inside inside' differ => by
    obtain ⟨t, isToken, respells⟩ := each f inside
    obtain ⟨u, isToken', respells'⟩ := each g inside'
    exact respells.overlaps_eq_false respells' run isToken isToken' differ
  have same := Fix.leftToRight_perm fixes
  have follow := apart.leftToRight_follow.imp And.left
  unfold Fix.applyAll
  rw [apart.applied_order, List.foldl_reverse,
    tokenize_foldr run follow fun f inside => each f (same.mem_iff.mp inside)]
  exact congrArg _ (List.map_congr_left fun t _ => t.respelled_perm same)

end

end StackLint
