/-
  StackLint.Proofs.Token.Standing
  ───────────────────────────────
  **WHERE TOKENS STAND IN THE TEXT.**

  A token that keeps its text can be read off the text where it begins.  The other
  way round, what stands between two tokens of a text is read as the same tokens in
  another text that goes on differently behind it, whatever stands in front: names and
  the signs behind them depend on nothing else.
-/
import StackLint.Proofs.Token.Exchange
import StackLint.Proofs.Token.ReadBack
import StackLint.Proofs.Token.Seam

namespace StackLint

/-! ## §1. Lexemes. -/

/-- What a token says that opens a template. -/
theorem Token.lexeme_of_opens {t : Token} (opens : t.opensTemplate = true) :
    ∃ value, t.lexeme = .template value ∨ t.lexeme = .templateHead value := by
  unfold opensTemplate at opens
  split at opens
  · next value isTemplate => exact ⟨value, .inl isTemplate⟩
  · next value isHead => exact ⟨value, .inr isHead⟩
  · cases opens

namespace Scan

/-- What opens a template is a backtick. -/
theorem backtick_of_lexeme {braces : List OpenBrace} {previous : Option Lexeme} {c : CodePoint}
    {rest : Text} {found : Found} (read : lexeme braces previous c rest = .ok found) {value : Text}
    (opens : found.lexeme = .template value ∨ found.lexeme = .templateHead value) :
    c = .scalar '\x60' := by
  by_contra other
  have ofString {quote : Quote} (isFound : stringLiteral quote braces rest = .ok found) : False := by
    obtain ⟨body, _, same⟩ := bind_eq_ok.mp isFound
    cases same
    rcases opens with never | never <;> cases never
  have ofPunctuator (isFound : punctuator braces c rest = found) : False := by
    unfold punctuator at isFound
    simp only at isFound
    split at isFound <;> (subst isFound; rcases opens with never | never <;> cases never)
  unfold lexeme at read
  rw [if_neg other] at read
  split at read
  · exact ofString read
  split at read
  · exact ofString read
  split at read
  · split at read
    · cases read
      rcases opens with never | never <;> cases never
    · cases read
  split at read
  · split at read <;> (cases read; rcases opens with never | never <;> cases never)
  split at read
  · split at read
    · cases read
      rcases opens with never | never <;> cases never
    · exact ofPunctuator (Except.ok.inj read)
  split at read
  · -- Behind a substitution a template goes on.
    obtain ⟨body, _, same⟩ := bind_eq_ok.mp read
    cases same
    cases goesOn : body.opensSubstitution <;> rw [goesOn] at opens <;>
      rcases opens with never | never <;> cases never
  · have isFound := Except.ok.inj read
    unfold nameOrPunctuator at isFound
    split at isFound
    · exact ofPunctuator isFound
    · subst isFound
      rcases opens with never | never <;> cases never

/-- An equals sign that nothing goes on. -/
theorem punctuator_assign {e : CodePoint} (ends : e ∉ ("=>" : Text)) (braces : List OpenBrace)
    (rest : Text) :
    punctuator braces (.scalar '=') (e :: rest) = ⟨.punct .assign, 0, braces⟩ := by
  -- Every longer punctuator goes on with one of these.
  have longer (p : Punct) : p.text <+: .scalar '=' :: e :: rest → p = .assign := by
    intro stands
    cases p <;>
      first
        | rfl
        | exact absurd (List.cons_prefix_cons.mp stands).1 (by decide)
        | exact absurd (List.cons_prefix_cons.mp (List.cons_prefix_cons.mp stands).2).1
            (fun same => ends (same ▸ by decide))
  have found : Punct.table.find? (standsAt (.scalar '=') (e :: rest))
      = some (Punct.assign.text, Punct.assign) := by
    refine find?_of_imp (p := fun entry => entry.2 == Punct.assign) ?_ rfl rfl
    intro entry listed holds
    unfold standsAt at holds
    rw [Bool.and_eq_true, List.isPrefixOf_iff_prefix, mem_table listed] at holds
    exact beq_iff_eq.mpr (longer entry.2 holds.1)
  rw [punctuator_eq, found]
  rfl

theorem lexeme_assign {e : CodePoint} (ends : e ∉ ("=>" : Text)) (braces : List OpenBrace)
    (previous : Option Lexeme) (rest : Text) :
    lexeme braces previous (.scalar '=') (e :: rest) = .ok ⟨.punct .assign, 0, braces⟩ := by
  rw [lexeme_mark (by decide) (by decide) rfl, punctuator_assign ends]

theorem lexeme_colon (braces : List OpenBrace) (previous : Option Lexeme) (rest : Text) :
    lexeme braces previous (.scalar ':') rest = .ok ⟨.punct .colon, 0, braces⟩ := by
  rw [lexeme_mark (by decide) (by decide) rfl]
  rfl

end Scan

/-! ## §2. Tokens. -/

namespace Layout

variable {L : Layout} {i : Nat}

theorem lt_size_of_lexeme (h : (L.token i).lexeme ≠ .endOfText) : i < L.size := by
  refine Nat.lt_of_not_le fun behind => h ?_
  rw [L.token_of_le behind]
  exact L.final_spec.1

/-- A token that keeps its text stands in the text. -/
theorem value_begins (verbatim : (L.token i).lexeme.isVerbatim = true) :
    (L.token i).lexeme.value <+: L.text.drop (L.startAt i) := by
  have inside : i < L.size := by
    refine lt_size_of_lexeme fun isEnd => ?_
    rw [isEnd] at verbatim
    cases verbatim
  obtain ⟨_, _, _, _, _, spelled⟩ := L.token_spec inside
  rw [← spelled verbatim]
  exact List.take_prefix _ _

theorem punct_begins {p : Punct} (h : (L.token i).is p = true) :
    p.text <+: L.text.drop (L.startAt i) := by
  have lexeme : (L.token i).lexeme = .punct p := by
    unfold Token.is at h
    exact beq_iff_eq.mp h
  have stands := value_begins (L := L) (i := i) (by rw [lexeme]; rfl)
  rw [lexeme] at stands
  exact stands

theorem word_begins {name : Text} (h : (L.token i).lexeme = .word name) :
    name <+: L.text.drop (L.startAt i) := by
  have stands := value_begins (L := L) (i := i) (by rw [h]; rfl)
  rw [h] at stands
  exact stands

/-- The text of a string token begins with its quote, and what follows is read as
the body of the string. -/
theorem string_stands {quote : Quote} {value : Text} (h : (L.token i).lexeme = .string quote value) :
    ∃ rest width, L.text.drop (L.startAt i) = .scalar quote.mark :: rest
      ∧ Scan.stringBody quote.mark 0 rest = .ok ⟨value, width⟩ := by
  have inside : i < L.size := by
    refine lt_size_of_lexeme ?_
    rw [h]
    nofun
  obtain ⟨memory, b, e, rest, found, way⟩ := L.exists_way inside
  have isString : found.lexeme = .string quote value := way.lexeme.symm.trans h
  obtain ⟨isQuote, width, body⟩ := Scan.stringBody_of_lexeme way.read isString
  refine ⟨rest, width, ?_, body⟩
  rw [← isQuote]
  exact way.left

/-- A template begins with a backtick. -/
theorem template_begins (opens : (L.token i).opensTemplate = true) :
    Text.ofString "\x60" <+: L.text.drop (L.startAt i) := by
  obtain ⟨value, isTemplate⟩ := Token.lexeme_of_opens opens
  have inside : i < L.size := lt_size_of_lexeme <| by
    rcases isTemplate with same | same <;> rw [same] <;> nofun
  obtain ⟨memory, b, e, rest, found, way⟩ := L.exists_way inside
  rw [way.lexeme] at isTemplate
  show _ <+: L.text.drop (L.token i).start
  rw [way.left, Scan.backtick_of_lexeme way.read isTemplate]
  exact List.prefix_append _ rest

end Layout

/-! ## §3. Tokens that stay. -/

namespace Layout

open Scan

variable {L L' : Layout} {i i' : Nat}

/-- A text goes on behind every token that begins in front of its end. -/
theorem lt_size_of_drop {c : CodePoint} {x : Text} (left : L.text.drop (L.startAt i) = c :: x) :
    i < L.size := by
  refine Nat.lt_of_not_le fun behind => ?_
  rw [L.startAt_of_le behind, List.drop_length] at left
  cases left

theorem token_of_lexeme {c : CodePoint} {x : Text} {l : Lexeme}
    (left : L.text.drop (L.startAt i) = c :: x)
    (read : ∀ braces previous,
      ∃ found, Scan.lexeme braces previous c x = .ok found ∧ found.lexeme = l) :
    (L.token i).lexeme = l := by
  obtain ⟨memory, b, e, rest, found, way⟩ := L.exists_way (lt_size_of_drop left)
  obtain ⟨rfl, rfl⟩ := List.cons.inj (left.symm.trans way.left)
  obtain ⟨found', isFound, same⟩ := read memory.braces memory.previous
  rw [way.lexeme, Except.ok.inj (way.read.symm.trans isFound), same]

/-- **Where a lexeme stands whatever was read before, it is a token,** and the next one begins
behind the gap. -/
theorem token_of_read {c d : CodePoint} {t gap y : Text} {l : Lexeme}
    (left : L.text.drop (L.startAt i) = c :: (t ++ (gap ++ d :: y)))
    (read : ∀ braces previous,
      ∃ braces', Scan.lexeme braces previous c (t ++ (gap ++ d :: y)) = .ok ⟨l, t.length, braces'⟩)
    (isGap : Gap false gap) (solid : trivia? d y = none) :
    (L.token i).lexeme = l ∧ L.startAt (i + 1) = L.startAt i + 1 + t.length + gap.length := by
  obtain ⟨memory, b, e, rest, found, way⟩ := L.exists_way (lt_size_of_drop left)
  have same : c :: (t ++ (gap ++ d :: y)) = e :: rest := left.symm.trans way.left
  obtain ⟨rfl, rfl⟩ := List.cons.inj same
  obtain ⟨braces', isFound⟩ := read memory.braces memory.previous
  have isFound := Except.ok.inj (way.read.symm.trans isFound)
  have behind := way.behind
  have later := way.later
  have stop := way.stop
  rw [way.lexeme, isFound]
  refine ⟨rfl, ?_⟩
  rw [isFound] at behind later stop
  simp only [List.drop_left] at behind stop
  rw [behind, passesOver_gap isGap] at later
  have first := start_of_tokensFrom solid later
  rw [L.head?_drop, Option.map_some, Option.some.injEq] at first
  show (L.token (i + 1)).start = L.startAt i + 1 + t.length + gap.length
  rw [first, stop]
  rfl

/-- **A token that another text has, too,** up to where the next one begins. -/
theorem token_of_slice {c d : CodePoint} {t y : Text} {l : Lexeme} (inside : i + 1 < L.size)
    (start : L'.startAt i' = L.startAt i)
    (left : L'.text.drop (L.startAt i)
      = L.text.slice (L.startAt i) (L.startAt (i + 1)) ++ d :: y)
    (solid : trivia? d y = none)
    (spelled : L.text.slice (L.startAt i) (L.stopBefore (i + 1)) = c :: t)
    (read : ∀ braces previous, ∃ braces', Scan.lexeme braces previous c
      (t ++ (L.text.slice (L.stopBefore (i + 1)) (L.startAt (i + 1)) ++ d :: y))
        = .ok ⟨l, t.length, braces'⟩) :
    (L'.token i').lexeme = l ∧ L'.startAt (i' + 1) = L.startAt (i + 1) := by
  have first := L.startAt_le_stopBefore_succ i
  have second := L.stopBefore_le_startAt (i + 1)
  rw [← Text.slice_append_slice _ first second, spelled, List.append_assoc, ← start] at left
  obtain ⟨same, next⟩ := token_of_read left read (gap_slice (Nat.succ_pos i) inside) solid
  refine ⟨same, ?_⟩
  have long := congrArg List.length spelled
  rw [Text.length_slice _ first (L.stopBefore_le _), List.length_cons] at long
  rw [next, start, Text.length_slice _ second (L.startAt_le _)]
  omega

/-- Behind a name no name goes on. -/
theorem ends_of_name {name : Text} (isName : isWord name = true)
    (isWord : (L.token i).lexeme = .word name) :
    ∀ d ∈ (L.text.drop (L.stopBefore (i + 1))).head?, isFlag d = false := by
  have inside : i < L.size := lt_size_of_lexeme (isWord ▸ nofun)
  obtain ⟨_, _, width, within, _, spelled⟩ := L.token_spec inside
  rw [isWord] at spelled
  have spelled : L.text.slice (L.startAt i) (L.stopBefore (i + 1)) = name := spelled rfl
  obtain ⟨memory, b, e, rest, found, way⟩ := L.exists_way inside
  have whole := way.left.symm.trans (Text.drop_eq_of_slice (Nat.le_of_lt width) spelled)
  have long := congrArg List.length spelled
  rw [Text.length_slice _ (Nat.le_of_lt width) within] at long
  have stop : L.stopBefore (i + 1) = L.startAt i + 1 + found.extra := way.stop
  cases name with
  | nil => cases isName
  | cons c t =>
      obtain ⟨rfl, rfl⟩ := List.cons.inj whole
      obtain ⟨start, goesOn, _⟩ := isName_of_isWord isName
      rw [List.length_cons] at long
      exact ends_of_lexeme way.read start goesOn (by omega)

/-- **A name stays,** unless what follows it now could go on with it. -/
theorem name_stays {name : Text} {d : CodePoint} {y : Text} (isName : isWord name = true)
    (isWord : (L.token i).lexeme = .word name) (inside : i + 1 < L.size)
    (start : L'.startAt i' = L.startAt i)
    (left : L'.text.drop (L.startAt i)
      = L.text.slice (L.startAt i) (L.startAt (i + 1)) ++ d :: y)
    (solid : trivia? d y = none)
    (ends : isFlag d = false ∨ ∃ x, L.text.drop (L.startAt (i + 1)) = d :: x) :
    (L'.token i').lexeme = .word name ∧ L'.startAt (i' + 1) = L.startAt (i + 1) := by
  obtain ⟨_, _, _, _, _, spelled⟩ := L.token_spec (Nat.lt_of_succ_lt inside)
  rw [isWord] at spelled
  have old := ends_of_name isName isWord
  rw [Text.drop_eq_of_slice (L.stopBefore_le_startAt (i + 1)) rfl] at old
  cases name with
  | nil => cases isName
  | cons c t =>
      refine token_of_slice inside start left solid (spelled rfl) fun braces previous => ⟨braces, ?_⟩
      obtain ⟨begins, goesOn, _⟩ := isName_of_isWord isName
      refine lexeme_name ⟨begins, goesOn, ?_⟩
      -- A gap is the same in both texts.
      revert old
      cases L.text.slice (L.stopBefore (i + 1)) (L.startAt (i + 1)) with
      | cons g gap => exact id
      | nil =>
          rintro old _ ⟨⟩
          rcases ends with noFlag | ⟨x, same⟩
          · exact noFlag
          · rw [same] at old
            exact old d rfl

/-- **A sign stays** in front of a gap, or of what does not go on with it. -/
theorem punct_stays {p : Punct} {mark d : CodePoint} {y : Text} (single : p.text = [mark])
    (isPunct : (L.token i).is p = true) (inside : i + 1 < L.size)
    (start : L'.startAt i' = L.startAt i)
    (left : L'.text.drop (L.startAt i)
      = L.text.slice (L.startAt i) (L.startAt (i + 1)) ++ d :: y)
    (solid : trivia? d y = none)
    (read : ∀ g z, g = d ∨ g ∈ gapMarks → ∀ braces previous,
      ∃ braces', Scan.lexeme braces previous mark (g :: z) = .ok ⟨.punct p, 0, braces'⟩) :
    (L'.token i').is p = true ∧ L'.startAt (i' + 1) = L.startAt (i + 1) := by
  obtain ⟨_, spelled⟩ := slice_of_is isPunct single
  have isGap := gap_slice (Nat.succ_pos i) inside
  have same : (L'.token i').lexeme = .punct p ∧ L'.startAt (i' + 1) = L.startAt (i + 1) := by
    refine token_of_slice inside start left solid spelled fun braces previous => ?_
    revert isGap
    cases L.text.slice (L.stopBefore (i + 1)) (L.startAt (i + 1)) with
    | cons g gap => exact fun isGap => read g _ (.inr (isGap.mem_marks g rfl)) braces previous
    | nil => exact fun _ => read d y (.inl rfl) braces previous
  exact ⟨beq_iff_eq.mpr same.1, same.2⟩

/-- From the token `i` up to the token `k` there are tokens with these lexemes. -/
inductive Leads (L : Layout) : Nat → Nat → List Lexeme → Prop where
  | here {i : Nat} : Leads L i i []
  | token {i k : Nat} {l : Lexeme} {ls : List Lexeme} (lexeme : (L.token i).lexeme = l)
      (later : Leads L (i + 1) k ls) : Leads L i k (l :: ls)

theorem Leads.eq_add {k : Nat} {ls : List Lexeme} (leads : L.Leads i k ls) : k = i + ls.length := by
  induction leads with
  | here => rfl
  | token _ _ ih =>
      rw [ih, List.length_cons]
      omega

/-- What stands behind the tokens that both texts have. -/
theorem drop_of_left {k : Nat} {rest : Text} (before : i ≤ k)
    (left : L'.text.drop (L.startAt i) = L.text.slice (L.startAt i) (L.startAt k) ++ rest) :
    L'.text.drop (L.startAt k) = rest := by
  have le := L.startAt_mono before
  have length := Text.length_slice L.text le (L.startAt_le k)
  calc L'.text.drop (L.startAt k)
      = (L'.text.drop (L.startAt i)).drop (L.startAt k - L.startAt i) := by
        rw [List.drop_drop, Nat.add_sub_cancel' le]
    _ = rest := by rw [left, List.drop_left' length]

/-- The first one of these tokens, and what stands behind it. -/
theorem left_behind {k : Nat} {rest : Text} (later : i + 1 ≤ k)
    (left : L'.text.drop (L.startAt i) = L.text.slice (L.startAt i) (L.startAt k) ++ rest) :
    L'.text.drop (L.startAt i) = L.text.slice (L.startAt i) (L.startAt (i + 1))
        ++ (L.text.slice (L.startAt (i + 1)) (L.startAt k) ++ rest)
      ∧ L'.text.drop (L.startAt (i + 1)) = L.text.slice (L.startAt (i + 1)) (L.startAt k) ++ rest := by
  have first := L.startAt_mono (Nat.le_succ i)
  rw [← Text.slice_append_slice _ first (L.startAt_mono later), List.append_assoc] at left
  exact ⟨left, drop_of_left (Nat.le_succ i) left⟩

/-- A slice that begins with a token begins with its first character. -/
theorem slice_eq_cons {k : Nat} {c : CodePoint} {x : Text} (before : i < k) (inside : k < L.size)
    (begins : L.text.drop (L.startAt i) = c :: x) :
    ∃ r, L.text.slice (L.startAt i) (L.startAt k) = c :: r := by
  have width := L.startAt_lt_startAt before (Nat.lt_trans before inside)
  unfold Text.slice
  rw [begins, ← Nat.sub_add_cancel (Nat.sub_pos_of_lt width), List.take_succ_cons]
  exact ⟨_, rfl⟩

/-- A name begins with a character of names. -/
theorem head_of_name {name : Text} (isName : isWord name = true)
    (isWord : (L.token i).lexeme = .word name) :
    ∃ c x, L.text.drop (L.startAt i) = c :: x ∧ isFlag c = true := by
  obtain ⟨rest, whole⟩ := word_begins isWord
  cases name with
  | nil => cases isName
  | cons c t => exact ⟨c, t ++ rest, whole.symm, isFlag_of_start (isName_of_isWord isName).start⟩

/-- **Names stay** in front of what is no name. -/
theorem names_stay {names : List Text} {k : Nat} {d : CodePoint} {y : Text}
    (areNames : ∀ name ∈ names, isWord name = true) (leads : L.Leads i k (names.map Lexeme.word))
    (inside : k < L.size) (start : L'.startAt i' = L.startAt i)
    (left : L'.text.drop (L.startAt i) = L.text.slice (L.startAt i) (L.startAt k) ++ d :: y)
    (solid : trivia? d y = none) (noFlag : isFlag d = false) :
    (∀ l, i' ≤ l → l < i' + names.length → (L'.token l).isWord = true)
      ∧ L'.startAt (i' + names.length) = L.startAt k := by
  induction names generalizing i i' with
  | nil =>
      cases leads
      exact ⟨fun l from' upTo => absurd from' (Nat.not_le.mpr upTo), start⟩
  | cons name names ih =>
      cases leads with
      | token isWord later =>
          have place := later.eq_add
          obtain ⟨whole, behind⟩ := left_behind (by omega) left
          -- What follows the name is the next one, or the new text.
          have next : ∃ d' y', L.text.slice (L.startAt (i + 1)) (L.startAt k) ++ d :: y = d' :: y'
              ∧ trivia? d' y' = none
              ∧ (isFlag d' = false ∨ ∃ x, L.text.drop (L.startAt (i + 1)) = d' :: x) := by
            cases names with
            | nil =>
                cases later
                rw [Text.slice_self _ (Nat.le_refl _)]
                exact ⟨d, y, rfl, solid, .inl noFlag⟩
            | cons name' names =>
                cases later with
                | token isWord' later =>
                    obtain ⟨c, x, begins, isFlag⟩ :=
                      head_of_name (areNames name' (by simp)) isWord'
                    have place' := later.eq_add
                    obtain ⟨r, same⟩ := slice_eq_cons (by omega) inside begins
                    exact ⟨c, r ++ d :: y, by rw [same]; rfl, trivia?_of_isFlag isFlag _, .inr ⟨x, begins⟩⟩
          obtain ⟨d', y', same, solid', ends⟩ := next
          rw [same] at whole
          obtain ⟨isWord', start'⟩ := name_stays (areNames name (List.mem_cons_self ..)) isWord
            (by omega) start whole solid' ends
          obtain ⟨words, atEnd⟩ := ih (fun other inside => areNames other (List.mem_cons_of_mem _ inside))
            later start' behind
          rw [Nat.add_assoc, Nat.add_comm 1] at atEnd words
          refine ⟨fun l from' upTo => ?_, atEnd⟩
          rcases Nat.eq_or_lt_of_le from' with rfl | from'
          · unfold Token.isWord
            rw [isWord']
          · exact words l from' upTo

/-- The signs that stand between a name and its value, in front of what does not go on with
them. -/
theorem exists_mark {p : Punct} {d : CodePoint}
    (sign : p = .colon ∨ p = .assign ∧ d ∉ ("=>" : Text)) :
    ∃ mark, p.text = [mark] ∧ isFlag mark = false ∧ (∀ z, trivia? mark z = none)
      ∧ ∀ g z, g = d ∨ g ∈ gapMarks → ∀ braces previous,
        ∃ braces', Scan.lexeme braces previous mark (g :: z) = .ok ⟨.punct p, 0, braces'⟩ := by
  rcases sign with rfl | ⟨rfl, ends⟩
  · refine ⟨.scalar ':', rfl, by decide, fun _ => rfl, fun g z _ braces previous => ?_⟩
    exact ⟨braces, lexeme_colon braces previous (g :: z)⟩
  · refine ⟨.scalar '=', rfl, by decide, fun _ => rfl, fun g z isNext braces previous => ?_⟩
    refine ⟨braces, lexeme_assign ?_ braces previous z⟩
    rcases isNext with rfl | isGap
    · exact ends
    · exact (by decide : ∀ e ∈ gapMarks, e ∉ ("=>" : Text)) g isGap

/-- **A key and its sign stay** in front of what does not go on with the sign. -/
theorem key_stays {name : Text} {p : Punct} {k : Nat} {d : CodePoint} {y : Text}
    (isName : isWord name = true) (leads : L.Leads i k [.word name, .punct p])
    (sign : p = .colon ∨ p = .assign ∧ d ∉ ("=>" : Text)) (inside : k < L.size)
    (start : L'.startAt i' = L.startAt i)
    (left : L'.text.drop (L.startAt i) = L.text.slice (L.startAt i) (L.startAt k) ++ d :: y)
    (solid : trivia? d y = none) :
    (L'.token i').lexeme = .word name ∧ (L'.token (i' + 1)).is p = true
      ∧ L'.startAt (i' + 2) = L.startAt k := by
  cases leads with
  | token isWord later =>
      cases later with
      | token isSign later =>
          cases later
          have isSign : (L.token (i + 1)).is p = true := beq_iff_eq.mpr isSign
          obtain ⟨whole, behind⟩ := left_behind (Nat.le_succ _) left
          obtain ⟨mark, single, noFlag, solid', read⟩ := exists_mark sign
          obtain ⟨x, begins⟩ := punct_begins isSign
          rw [single, List.singleton_append] at begins
          obtain ⟨r, same⟩ := slice_eq_cons (Nat.lt_succ_self (i + 1)) inside begins.symm
          rw [same] at whole
          obtain ⟨isWord', start'⟩ := name_stays isName isWord (Nat.lt_of_succ_lt inside) start whole
            (solid' _) (.inl noFlag)
          exact ⟨isWord', punct_stays single isSign inside start' behind solid read⟩

/-- An empty list in parentheses. -/
theorem parens_of_drop {z : Text} (left : L.text.drop (L.startAt i) = ("()" : Text) ++ z) :
    (L.token i).is .openParen = true ∧ (L.token (i + 1)).is .closeParen = true := by
  have opens (braces : List OpenBrace) (previous : Option Lexeme) :
      Scan.lexeme braces previous (.scalar '(') (.scalar ')' :: z)
        = .ok ⟨.punct .openParen, 0, braces⟩ := by
    rw [lexeme_mark (by decide) (by decide) rfl]
    rfl
  have closes (braces : List OpenBrace) (previous : Option Lexeme) :
      Scan.lexeme braces previous (.scalar ')') z = .ok ⟨.punct .closeParen, 0, braces⟩ := by
    rw [lexeme_mark (by decide) (by decide) rfl]
    rfl
  have left' : L.text.drop (L.startAt i) = .scalar '(' :: ([] ++ ([] ++ .scalar ')' :: z)) := left
  obtain ⟨first, place⟩ := token_of_read left'
    (fun braces previous => ⟨braces, opens braces previous⟩) .nil rfl
  have behind : L.text.drop (L.startAt (i + 1)) = .scalar ')' :: z := by
    rw [place, List.length_nil, Nat.add_zero, Nat.add_zero, ← List.drop_drop, left]
    rfl
  have second := token_of_lexeme behind fun braces previous => ⟨_, closes braces previous, rfl⟩
  exact ⟨beq_iff_eq.mpr first, beq_iff_eq.mpr second⟩

end Layout

/-! ## §4. What stands between two places. -/

/-- What the tokens say that begin in this range of the text. -/
def Text.lexemesBetween (t : Text) (start stop : Nat) : Except ScanFailure (List Lexeme) :=
  (tokenize t).map fun tokens =>
    (tokens.filter fun token => start ≤ token.start ∧ token.start < stop).map Token.lexeme

namespace Layout

variable {L : Layout} {i k : Nat}

/-- The tokens between two tokens are those from the one up to the other. -/
theorem leads_of_filter {start : Nat} (behind : start ≤ L.startAt i) (before : i ≤ k)
    (inside : k ≤ L.size) :
    L.Leads i k (((L.tokens.drop i ++ [L.final]).filter fun token =>
      start ≤ token.start ∧ token.start < L.startAt k).map Token.lexeme) := by
  induction h : k - i generalizing i with
  | zero =>
      obtain rfl : i = k := by omega
      have none : (L.tokens.drop i ++ [L.final]).filter (fun token =>
          start ≤ token.start ∧ token.start < L.startAt i) = [] := by
        refine List.filter_eq_nil_iff.mpr fun t listed => ?_
        have later := L.le_start_of_mem_drop listed
        rw [decide_eq_true_eq]
        omega
      rw [none]
      exact .here
  | succ n ih =>
      have first : L.startAt i < L.startAt k := L.startAt_lt_startAt (by omega) (by omega)
      have next := L.startAt_mono (Nat.le_succ i)
      rw [L.drop_eq_cons (by omega), List.cons_append, List.filter_cons_of_pos, List.map_cons]
      · exact .token rfl (ih (Nat.le_trans behind next) (by omega) (by omega))
      · exact decide_eq_true ⟨behind, first⟩

theorem leads_of_between {ls : List Lexeme} (before : i ≤ k) (inside : k ≤ L.size)
    (h : L.text.lexemesBetween (L.startAt i) (L.startAt k) = .ok ls) : L.Leads i k ls := by
  unfold Text.lexemesBetween at h
  rw [L.scanned] at h
  have isBetween := Except.ok.inj h
  simp only at isBetween
  have front : (L.tokens.take i).filter (fun token =>
      L.startAt i ≤ token.start ∧ token.start < L.startAt k) = [] := by
    refine List.filter_eq_nil_iff.mpr fun t listed => ?_
    have earlier := L.stop_le_of_mem_take listed
    have width := L.start_lt_stop_of_mem (List.mem_of_mem_take listed)
    have le := L.stopBefore_le_startAt i
    rw [decide_eq_true_eq]
    omega
  rw [← List.take_append_drop i L.tokens, List.append_assoc, List.filter_append, front,
    List.nil_append] at isBetween
  rw [← isBetween]
  exact leads_of_filter (Nat.le_refl _) before inside

end Layout
end StackLint
