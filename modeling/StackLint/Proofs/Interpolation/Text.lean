/-
  StackLint.Proofs.Interpolation.Text
  ───────────────────────────────────
  **TEMPLATE TEXTS ONE BEHIND THE OTHER.**

  A text that has been escaped for a template is read back, whatever follows it, and
  so is the text of a template.  There are two exceptions.  A dollar sign at the end
  opens a substitution together with a brace that follows, and an escape that breaks
  off at the end takes from what follows.  An escaped text between two backticks is no
  such exception: there it is one token.

  A text is escaped by three replacements, one after the other, and read from left to
  right.  The two meet in `escapeTemplate_cons`, which escapes character by character.
-/
import StackLint.Rule.PulumiOutput
import StackLint.Proofs.Except
import StackLint.Proofs.Token.Walk

namespace StackLint

namespace Scan

/-! ## §1. Texts that end by themselves. -/

/-- What is read of `front`, which says `value`, and of the template text behind it. -/
def TemplateText.behind (front value : Text) (body : TemplateText) : TemplateText :=
  ⟨⟨value ++ body.value, front.length + body.width⟩, body.opensSubstitution⟩

/-- No escape of the template text `front` takes from the text `rest` behind it, and its
last dollar sign opens no substitution with it. -/
def keepsApart (rest : Text) : (skip : Nat) → (front : Text) → Bool
  | 0, [] => true
  | _ + 1, [] => false
  | skip + 1, _ :: front => keepsApart rest skip front
  | 0, c :: front =>
      if c = '\\' then
        match Escape.decode (front ++ [.scalar '\x60']) with
        | .ok escape =>
            (Escape.decode (front ++ rest)).toOption == some escape
              && keepsApart rest escape.width front
        | .error _ => false
      else
        !(c == '$' && front.isEmpty && rest.head? == some (.scalar '{')) && keepsApart rest 0 front

variable {front rest value : Text}

theorem behind_nil (read : Except ScanFailure TemplateText) :
    read.map (TemplateText.behind [] []) = read := by
  cases read with
  | error failure => rfl
  | ok body =>
      have width : ([] : Text).length + body.width = body.width := Nat.zero_add _
      show Except.ok (TemplateText.behind [] [] body) = _
      unfold TemplateText.behind
      rw [width]
      rfl

/-- One more character in front. -/
theorem map_behind_cons (c : CodePoint) (added : Text) (read : Except ScanFailure TemplateText) :
    (do
      let body ← read.map (TemplateText.behind front value)
      return (⟨⟨added ++ body.value, body.width + 1⟩, body.opensSubstitution⟩ : TemplateText))
      = read.map (TemplateText.behind (c :: front) (added ++ value)) := by
  cases read with
  | error failure => rfl
  | ok body =>
      have width : front.length + body.width + 1 = (c :: front).length + body.width := by
        rw [List.length_cons]
        omega
      show Except.ok _ = Except.ok _
      unfold TemplateText.behind
      dsimp only
      rw [width, List.append_assoc]

/-- What follows the first character is seen in front of `rest`. -/
theorem head?_append (nonempty : front ≠ []) : (front ++ rest).head? = front.head? := by
  cases front with
  | nil => exact absurd rfl nonempty
  | cons c front => rfl

/-- **Template text that a backtick would end** is read in the same way in front of other
template text, from which it keeps apart. -/
theorem templateBody_append {skip : Nat}
    (read : templateBody skip (front ++ [.scalar '\x60']) = .ok ⟨⟨value, front.length + 1⟩, false⟩)
    (apart : keepsApart rest skip front = true) :
    templateBody skip (front ++ rest)
      = (templateBody 0 rest).map (TemplateText.behind front value) := by
  induction front generalizing skip value with
  | nil =>
      cases skip with
      | succ skip => cases apart
      | zero =>
          cases read
          exact (behind_nil _).symm
  | cons c front ih =>
      rw [List.cons_append] at read ⊢
      cases skip with
      | succ skip =>
          rw [templateBody] at read ⊢
          obtain ⟨⟨⟨value', width⟩, opens⟩, inner, same⟩ := bind_eq_ok.mp read
          cases same
          rw [ih inner apart]
          exact map_behind_cons c [] _
      | zero =>
          rw [templateBody] at read ⊢
          rw [keepsApart] at apart
          by_cases backslash : c = .scalar '\\'
          · rw [if_pos backslash] at read apart ⊢
            obtain ⟨escape, decoded, read⟩ := bind_eq_ok.mp read
            obtain ⟨⟨⟨value', width⟩, opens⟩, inner, same⟩ := bind_eq_ok.mp read
            cases same
            rw [decoded] at apart
            obtain ⟨same, apart⟩ := Bool.and_eq_true_iff.mp apart
            have decoded' : Escape.decode (front ++ rest) = .ok escape := by
              have same := beq_iff_eq.mp same
              cases isDecoded : Escape.decode (front ++ rest) with
              | error failure =>
                  rw [isDecoded] at same
                  cases same
              | ok escape' =>
                  rw [isDecoded] at same
                  exact congrArg Except.ok (Option.some.inj same)
            rw [decoded']
            show (do
              let body ← templateBody escape.width (front ++ rest)
              return (⟨⟨escape.value ++ body.value, body.width + 1⟩, body.opensSubstitution⟩
                : TemplateText)) = _
            rw [ih inner apart]
            exact map_behind_cons c escape.value _
          rw [if_neg backslash] at read apart ⊢
          obtain ⟨noBrace, apart⟩ := Bool.and_eq_true_iff.mp apart
          by_cases backtick : c = .scalar '\x60'
          · rw [if_pos backtick, List.length_cons] at read
            have width := congrArg (·.width) (Except.ok.inj read)
            exact absurd (Nat.succ.inj width) (Nat.succ_ne_zero _).symm
          rw [if_neg backtick] at read ⊢
          by_cases opens : c = .scalar '$'
              ∧ (front ++ [CodePoint.scalar '\x60']).head? = some (.scalar '{')
          · rw [if_pos opens] at read
            cases congrArg (·.opensSubstitution) (Except.ok.inj read)
          rw [if_neg opens] at read
          have opens' : ¬ (c = .scalar '$' ∧ (front ++ rest).head? = some (.scalar '{')) := by
            rintro ⟨dollar, brace⟩
            by_cases empty : front = []
            · rw [empty] at noBrace brace
              rw [List.nil_append] at brace
              rw [dollar, brace] at noBrace
              cases noBrace
            · rw [head?_append empty] at brace
              exact opens ⟨dollar, by rw [head?_append empty, brace]⟩
          obtain ⟨⟨⟨value', width⟩, opens⟩, inner, same⟩ := bind_eq_ok.mp read
          cases same
          rw [if_neg opens', ih inner apart]
          exact map_behind_cons c [c] _

/-- **Template text between two backticks is one token** if the second backtick ends it. -/
theorem tokenize_template
    (read : templateBody 0 (front ++ [.scalar '\x60']) = .ok ⟨⟨value, front.length + 1⟩, false⟩) :
    tokenize (.scalar '\x60' :: (front ++ [.scalar '\x60']))
      = .ok [⟨.template value, 0, front.length + 2, false⟩,
          ⟨.endOfText, front.length + 2, front.length + 2, false⟩] := by
  have noHashbang : hashbangWidth (.scalar '\x60' :: (front ++ [.scalar '\x60'])) = 0 := by
    cases front <;> rfl
  have isTemplate : lexeme [] none (.scalar '\x60') (front ++ [.scalar '\x60'])
      = .ok ⟨.template value, front.length + 1, []⟩ := by
    show templatePart true [] (front ++ [.scalar '\x60']) = _
    unfold templatePart
    rw [read]
    rfl
  have length : (front ++ [CodePoint.scalar '\x60']).length = front.length + 1 :=
    List.length_append
  unfold tokenize
  rw [noHashbang, tokensFrom_lexeme rfl isTemplate, ← length, Nat.min_self, List.drop_length,
    tokensFrom_nil, length]
  have stop : 0 + 1 + (front.length + 1) = front.length + 2 := by omega
  rw [stop, Nat.zero_add]
  rfl

end Scan

/-! ## §2. Replacements. -/

namespace Text

variable {old new t : Text} {c : CodePoint}

theorem replaceAll_cons_of_not_prefix (isOther : old.isPrefixOf (c :: t) = false) :
    replaceAll (c :: t) old new = c :: replaceAll t old new := by
  unfold replaceAll
  rw [replaceFrom, if_neg (Bool.eq_false_iff.mp isOther)]

/-- A single character is replaced wherever it stands. -/
theorem replaceAll_singleton (c : CodePoint) (new t : Text) :
    replaceAll t [c] new = t.flatMap fun d => if d = c then new else [d] := by
  induction t with
  | nil => rfl
  | cons d t ih =>
      rw [List.flatMap_cons, ← ih]
      by_cases same : d = c
      · have isPrefix : [c].isPrefixOf (d :: t) = true := by
          rw [same, List.isPrefixOf_cons_cons, beq_self_eq_true, List.isPrefixOf_nil_left, Bool.and_self]
        rw [if_pos same, replaceAll, replaceFrom, if_pos isPrefix]
        rfl
      · have isOther : [c].isPrefixOf (d :: t) = false := by
          rw [List.isPrefixOf_cons_cons, beq_eq_false_iff_ne.mpr (Ne.symm same), Bool.false_and]
        rw [if_neg same, replaceAll_cons_of_not_prefix isOther]
        rfl

end Text

/-! ## §3. Escaped texts. -/

namespace PulumiOutput

open Scan (templateBody TemplateText behind_nil map_behind_cons)

variable {value rest : Text}

/-- A character after the backslashes and the backticks have been escaped. -/
def markEscape (c : CodePoint) : Text :=
  if c = '\\' ∨ c = '\x60' then [.scalar '\\', c] else [c]

/-- The backslashes that are put in front of backticks are not escaped once more. -/
theorem replaceAll_marks (value : Text) :
    (value.replaceAll "\\" "\\\\").replaceAll "\x60" "\\\x60" = value.flatMap markEscape := by
  have backslash : Text.ofString "\\" = [.scalar '\\'] := rfl
  have backtick : Text.ofString "\x60" = [.scalar '\x60'] := rfl
  rw [backslash, backtick, Text.replaceAll_singleton, Text.replaceAll_singleton, List.flatMap_assoc]
  refine congrArg value.flatMap (funext fun c => ?_)
  unfold markEscape
  by_cases isBackslash : c = .scalar '\\'
  · rw [isBackslash]
    rfl
  · rw [if_neg isBackslash, List.flatMap_singleton]
    by_cases isBacktick : c = .scalar '\x60'
    · rw [isBacktick]
      rfl
    · rw [if_neg isBacktick, if_neg (not_or.mpr ⟨isBackslash, isBacktick⟩)]

/-- A text begins with a brace before and after these escapes. -/
theorem head?_flatMap_markEscape (value : Text) :
    (value.flatMap markEscape).head? = some (.scalar '{') ↔ value.head? = some (.scalar '{') := by
  cases value with
  | nil => exact Iff.rfl
  | cons c value =>
      rw [List.flatMap_cons, markEscape]
      split
      · next special =>
          refine iff_of_false (fun brace => ?_) fun brace => ?_
          · exact absurd (Option.some.inj brace) (by decide)
          · rw [Option.some.inj brace] at special
            exact absurd special (by decide)
      · exact Iff.rfl

theorem opening_isPrefixOf {c : CodePoint} {t : Text} :
    (Text.ofString "$\x7b").isPrefixOf (c :: t) = true
      ↔ c = .scalar '$' ∧ t.head? = some (.scalar '{') := by
  have opening : Text.ofString "$\x7b" = [.scalar '$', .scalar '{'] := rfl
  rw [opening, List.isPrefixOf_cons_cons, Bool.and_eq_true, beq_iff_eq, eq_comm]
  refine and_congr_right fun _ => ?_
  cases t with
  | nil => exact iff_of_false Bool.false_ne_true (Option.some_ne_none _ ·.symm)
  | cons d t =>
      rw [List.isPrefixOf_cons_cons, List.isPrefixOf_nil_left, Bool.and_true, beq_iff_eq,
        List.head?_cons, Option.some.injEq, eq_comm]

/-- **The three replacements escape one character after the other,** each by what follows it
in the text. -/
theorem escapeTemplate_cons (c : CodePoint) (value : Text) :
    escapeTemplate (c :: value)
      = if c = '\\' ∨ c = '\x60' ∨ (c = '$' ∧ value.head? = some (.scalar '{')) then
          .scalar '\\' :: c :: escapeTemplate value
        else c :: escapeTemplate value := by
  -- What begins no substitution is left to itself by the last replacement.
  have kept {d : CodePoint} {t : Text} (apart : ¬ (d = .scalar '$' ∧ t.head? = some (.scalar '{'))) :
      Text.replaceAll (d :: t) "$\x7b" "\\$\x7b" = d :: Text.replaceAll t "$\x7b" "\\$\x7b" :=
    Text.replaceAll_cons_of_not_prefix (Bool.eq_false_iff.mpr (mt opening_isPrefixOf.mp apart))
  unfold escapeTemplate
  rw [replaceAll_marks, replaceAll_marks, List.flatMap_cons, markEscape]
  by_cases isMark : c = .scalar '\\' ∨ c = .scalar '\x60'
  · have notDollar : c ≠ .scalar '$' := by
      rcases isMark with rfl | rfl <;> decide
    rw [if_pos isMark, if_pos (isMark.imp_right .inl), List.cons_append, List.singleton_append,
      kept fun opens => absurd opens.1 (by decide), kept fun opens => notDollar opens.1]
  · obtain ⟨notBackslash, notBacktick⟩ := not_or.mp isMark
    rw [if_neg isMark, List.singleton_append]
    by_cases opens : c = .scalar '$' ∧ value.head? = some (.scalar '{')
    · obtain ⟨rfl, brace⟩ := opens
      obtain ⟨value, rfl⟩ := List.head?_eq_some_iff.mp brace
      rfl
    · rw [if_neg (not_or.mpr ⟨notBackslash, not_or.mpr ⟨notBacktick, opens⟩⟩),
        kept (mt (And.imp_right (head?_flatMap_markEscape value).mp) opens)]

/-- A brace stands at the front of an escaped text only where the text begins with it. -/
theorem head?_escapeTemplate (nonempty : value ≠ []) :
    (escapeTemplate value ++ rest).head? = some (.scalar '{') ↔ value.head? = some (.scalar '{') := by
  cases value with
  | nil => exact absurd rfl nonempty
  | cons c value =>
      rw [escapeTemplate_cons]
      split
      · next special =>
          constructor
          · intro brace
            exact absurd (Option.some.inj brace) (by decide)
          · intro brace
            rw [Option.some.inj brace] at special
            exact absurd special (by simp)
      · exact Iff.rfl

/-- What an escaped character denotes. -/
theorem decode_escaped {c : CodePoint}
    (special : c = '\\' ∨ c = '\x60' ∨ (c = '$' ∧ value.head? = some (.scalar '{'))) (t : Text) :
    Escape.decode (c :: t) = .ok ⟨[c], 1⟩ := by
  rcases special with rfl | rfl | ⟨rfl, _⟩ <;> rfl

/-- **An escaped text is read back** in front of other template text, unless a dollar sign
and a brace come together. -/
theorem templateBody_escapeTemplate
    (apart : ¬ (value.getLast? = some (.scalar '$') ∧ rest.head? = some (.scalar '{'))) :
    templateBody 0 (escapeTemplate value ++ rest)
      = (templateBody 0 rest).map (TemplateText.behind (escapeTemplate value) value) := by
  induction value with
  | nil => exact (behind_nil _).symm
  | cons c value ih =>
      have later : templateBody 0 (escapeTemplate value ++ rest)
          = (templateBody 0 rest).map (TemplateText.behind (escapeTemplate value) value) := by
        refine ih fun ⟨last, brace⟩ => apart ⟨?_, brace⟩
        rw [List.getLast?_cons, last]
        rfl
      rw [escapeTemplate_cons]
      split
      · next special =>
          rw [List.cons_append, List.cons_append, templateBody, if_pos rfl,
            decode_escaped special]
          show (do
            let body ← templateBody 1 (c :: (escapeTemplate value ++ rest))
            return (⟨⟨[c] ++ body.value, body.width + 1⟩, body.opensSubstitution⟩
              : TemplateText)) = _
          rw [templateBody, later, ← List.singleton_append (x := c) (l := value)]
          refine (congrArg (· >>= _) (map_behind_cons c [] _)).trans ?_
          exact map_behind_cons (.scalar '\\') [c] _
      · next plain =>
          simp only [not_or] at plain
          have opens : ¬ (c = .scalar '$' ∧ (escapeTemplate value ++ rest).head? = some (.scalar '{')) := by
            rintro ⟨dollar, brace⟩
            by_cases empty : value = []
            · rw [empty, dollar] at apart
              rw [empty] at brace
              exact apart ⟨rfl, brace⟩
            · exact plain.2.2 ⟨dollar, (head?_escapeTemplate empty).mp brace⟩
          rw [List.cons_append, templateBody, if_neg plain.1, if_neg plain.2.1, if_neg opens, later]
          exact map_behind_cons c [c] _

/-- **An escaped text is read back** as one template that has no substitution and takes the whole
text between backticks. -/
theorem tokenize_escapeTemplate (value : Text) :
    let code : Text := "\x60" ++ escapeTemplate value ++ "\x60"
    tokenize code = .ok [⟨.template value, 0, code.length, false⟩,
      ⟨.endOfText, code.length, code.length, false⟩] := by
  have apart : ¬ (value.getLast? = some (.scalar '$')
      ∧ [CodePoint.scalar '\x60'].head? = some (.scalar '{')) := by
    rintro ⟨_, brace⟩
    exact absurd brace (by decide)
  have closing : templateBody 0 [.scalar '\x60'] = .ok ⟨⟨[], 1⟩, false⟩ := rfl
  have read : templateBody 0 (escapeTemplate value ++ [.scalar '\x60'])
      = .ok ⟨⟨value, (escapeTemplate value).length + 1⟩, false⟩ := by
    rw [templateBody_escapeTemplate apart, closing]
    show Except.ok (TemplateText.behind (escapeTemplate value) value ⟨⟨[], 1⟩, false⟩) = _
    unfold TemplateText.behind
    rw [List.append_nil]
  intro code
  have length : code.length = (escapeTemplate value).length + 2 := by
    show (escapeTemplate value ++ [CodePoint.scalar '\x60']).length + 1 = _
    rw [List.length_append, List.length_singleton]
  rw [length]
  exact Scan.tokenize_template read

end PulumiOutput

end StackLint
