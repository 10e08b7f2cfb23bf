/-
  StackLint.Proofs.Print.Spelled
  ──────────────────────────────
  **CODE THAT IS READ IN ANOTHER PLACE.**

  The text `b` in front of `z` spells lexemes if it is read as these wherever they fit the
  open braces.  Pieces of code that do so are put together, and a piece of a text that was
  read as the lexemes of an expression is one of them: of what the scanner remembers,
  neither the braces nor the lexeme in front matter to it.
-/
import StackLint.Proofs.Print.Assigned
import StackLint.Proofs.Token.Insertion
import StackLint.Source

namespace StackLint

namespace Scan

variable {b z t t' : Text} {c : CodePoint} {rest : Text} {found : Found} {ls ls' : List Lexeme}
  {memory memory' : Memory} {offset offset' : Nat} {tokens : List Token}

/-! ## §1. Other braces. -/

/-- **A lexeme is read in the same way under other braces,** unless it would close a
substitution there. -/
theorem lexeme_elsewhere {braces braces' : List OpenBrace} {previous : Option Lexeme}
    (read : lexeme braces previous c rest = .ok found) (written : found.lexeme.IsWritten)
    (inCode : ¬ (c = .scalar '}' ∧ braces'.head? = some .substitution)) :
    lexeme braces' previous c rest
      = .ok ⟨found.lexeme, found.extra, bracesBehind found.lexeme braces'⟩ := by
  have ofString {quote : Quote} (read : stringLiteral quote braces rest = .ok found) :
      stringLiteral quote braces' rest
        = .ok ⟨found.lexeme, found.extra, bracesBehind found.lexeme braces'⟩ := by
    obtain ⟨body, isBody, same⟩ := bind_eq_ok.mp read
    cases same
    unfold stringLiteral
    rw [isBody]
    rfl
  have ofTemplate {opening : Bool} {below : List OpenBrace}
      (read : templatePart opening below rest = .ok found) : False := by
    obtain ⟨body, _, same⟩ := bind_eq_ok.mp read
    cases same
    revert written
    cases opening <;> cases body.opensSubstitution <;> exact id
  have ofPunctuator (isFound : punctuator braces c rest = found) : punctuator braces' c rest
      = ⟨found.lexeme, found.extra, bracesBehind found.lexeme braces'⟩ := by
    rw [← isFound]
    unfold punctuator
    simp only
    split <;> rfl
  unfold lexeme at read ⊢
  split at read
  · next isDouble => rw [if_pos isDouble]; exact ofString read
  next notDouble =>
  rw [if_neg notDouble]
  split at read
  · next isSingle => rw [if_pos isSingle]; exact ofString read
  next notSingle =>
  rw [if_neg notSingle]
  split at read
  · exact (ofTemplate read).elim
  next notTemplate =>
  rw [if_neg notTemplate]
  split at read
  · next isNumber =>
      rw [if_pos isNumber]
      split at read
      · cases read
        rfl
      · cases read
  next notNumber =>
  rw [if_neg notNumber]
  split at read
  · next isPrivate =>
      rw [if_pos isPrivate]
      split at read
      · cases read
        rfl
      · cases read
        rfl
  next notPrivate =>
  rw [if_neg notPrivate]
  split at read
  · next isRegex =>
      rw [if_pos isRegex]
      split at read
      · cases read
        cases written
      · exact congrArg Except.ok (ofPunctuator (Except.ok.inj read))
  next notRegex =>
  rw [if_neg notRegex]
  split at read
  · exact (ofTemplate read).elim
  rw [if_neg inCode]
  have isFound := Except.ok.inj read
  unfold nameOrPunctuator at isFound ⊢
  split at isFound
  · exact congrArg Except.ok (ofPunctuator isFound)
  · cases isFound
    rfl

/-- What is written and begins with a slash is an operator. -/
theorem ne_slash_of_lexeme {braces : List OpenBrace} {previous : Option Lexeme}
    (read : lexeme braces previous c rest = .ok found) (written : found.lexeme.IsWritten)
    (noSlash : found.lexeme.isSlash = false) : c ≠ .scalar '/' := by
  rintro rfl
  have ofPunctuator (isFound : punctuator braces (.scalar '/') rest = found) : False := by
    rw [← isFound, isSlash_punctuator braces rfl rest] at noSlash
    cases noSlash
  have noName : nameWidth (.scalar '/' :: rest) = 0 := by
    rw [nameWidth, if_neg]
    decide
  unfold lexeme at read
  rw [if_neg (by decide), if_neg (by decide), if_neg (by decide),
    if_neg (show ¬ startsNumber (.scalar '/') rest = true from Bool.false_ne_true),
    if_neg fun never => absurd never.1 (by decide)] at read
  split at read
  · split at read
    · cases read
      cases written
    · exact ofPunctuator (Except.ok.inj read)
  · rw [if_neg fun never => absurd never.1 (by decide)] at read
    unfold nameOrPunctuator at read
    rw [noName] at read
    exact ofPunctuator (Except.ok.inj read)

/-- What is written and begins with a closing brace is one. -/
theorem eq_closeBrace_of_lexeme {braces : List OpenBrace} {previous : Option Lexeme}
    (read : lexeme braces previous (.scalar '}') rest = .ok found)
    (written : found.lexeme.IsWritten) : found.lexeme = .punct .closeBrace := by
  by_cases isHead : braces.head? = some .substitution
  · unfold lexeme at read
    rw [if_neg (by decide), if_neg (by decide), if_neg (by decide),
      if_neg (show ¬ startsNumber (.scalar '}') rest = true from Bool.false_ne_true),
      if_neg fun never => absurd never.1 (by decide), if_neg fun never => absurd never.1 (by decide),
      if_pos ⟨rfl, isHead⟩] at read
    obtain ⟨body, _, same⟩ := bind_eq_ok.mp read
    cases same
    cases opens : body.opensSubstitution <;> rw [opens] at written <;> cases written
  · rw [lexeme_sign (by decide) (by decide) rfl fun closes => isHead closes.2] at read
    cases read
    rfl

/-! ## §2. The way through code. -/

/-- The lexemes on the way fit the open braces, and leave those that are open behind it. -/
theorem Comes.nests (comes : Comes memory offset t tokens memory' offset' t') :
    (tokens.map Token.lexeme).foldlM nest? memory.braces = some memory'.braces := by
  induction comes with
  | here => rfl
  | trivia _ _ ih => exact ih
  | lexeme _ read _ ih =>
      rw [List.map_cons, List.foldlM_cons, nest?_of_lexeme read]
      exact ih

/-- The lexemes fit the open braces. -/
def Nests (braces : List OpenBrace) (ls : List Lexeme) : Prop :=
  (ls.foldlM nest? braces).isSome = true

theorem Nests.of_cons {braces : List OpenBrace} {l : Lexeme} (nests : Nests braces (l :: ls)) :
    ∃ within, nest? braces l = some within ∧ Nests within ls := by
  obtain ⟨stack, whole⟩ := Option.isSome_iff_exists.mp nests
  rw [List.foldlM_cons] at whole
  obtain ⟨within, first, others⟩ := Option.bind_eq_some_iff.mp whole
  exact ⟨within, first, Option.isSome_iff_exists.mpr ⟨stack, others⟩⟩

/-- A closing brace does not fit a substitution. -/
theorem Nests.head?_ne {braces : List OpenBrace} (nests : Nests braces (.punct .closeBrace :: ls)) :
    braces.head? ≠ some .substitution := by
  intro isHead
  obtain ⟨within, isWithin, _⟩ := nests.of_cons
  cases braces with
  | nil => cases isHead
  | cons mark below =>
      cases isHead
      cases isWithin

theorem Nests.of_append {braces : List OpenBrace} (nests : Nests braces (ls ++ ls')) :
    ∃ within, ls.foldlM nest? braces = some within ∧ Nests within ls' := by
  obtain ⟨stack, whole⟩ := Option.isSome_iff_exists.mp nests
  rw [List.foldlM_append] at whole
  obtain ⟨within, first, others⟩ := Option.bind_eq_some_iff.mp whole
  exact ⟨within, first, Option.isSome_iff_exists.mpr ⟨stack, others⟩⟩

/-- Lexemes with balanced brackets fit all braces. -/
theorem Nests.of_contained (contained : Contained ls) (braces : List OpenBrace) :
    Nests braces ls :=
  Option.isSome_iff_exists.mpr ⟨braces, contained.nests braces⟩

/-- **Under other braces and behind another lexeme** the way is the same, if the lexemes fit the
braces and no slash comes first. -/
theorem Comes.elsewhere (comes : Comes memory offset t tokens memory' offset' t')
    (written : ∀ u ∈ tokens, u.lexeme.IsWritten) {braces : List OpenBrace}
    (nests : Nests braces (tokens.map Token.lexeme)) {previous : Option Lexeme}
    (noSlash : previous = memory.previous ∨ ∀ u ∈ tokens.head?, u.lexeme.isSlash = false) :
    ∃ memory₁, Comes ⟨braces, previous, memory.newline⟩ offset t tokens memory₁ offset' t' := by
  induction comes generalizing braces previous with
  | here => exact ⟨_, .here⟩
  | trivia skipped _ ih =>
      obtain ⟨memory₁, later⟩ := ih written nests noSlash
      exact ⟨memory₁, .trivia skipped later⟩
  | @lexeme memory _ offset _ _ tokens c rest found notTrivial read _ ih =>
      obtain ⟨first, others⟩ := List.forall_mem_cons.mp written
      have inCode : ¬ (c = .scalar '}' ∧ braces.head? = some .substitution) := by
        rintro ⟨rfl, isHead⟩
        rw [List.map_cons, eq_closeBrace_of_lexeme read first] at nests
        exact nests.head?_ne isHead
      obtain ⟨within, isWithin, nests⟩ := nests.of_cons
      have read' : Scan.lexeme braces previous c rest
          = .ok ⟨found.lexeme, found.extra, bracesBehind found.lexeme braces⟩ := by
        rcases noSlash with rfl | noSlash
        · exact lexeme_elsewhere read first inCode
        · rw [lexeme_previous (ne_slash_of_lexeme read first (noSlash _ rfl)) _ memory.previous]
          exact lexeme_elsewhere read first inCode
      have same : nest? braces found.lexeme = some (bracesBehind found.lexeme braces) :=
        nest?_of_lexeme read'
      obtain rfl := Option.some.inj (isWithin.symm.trans same)
      obtain ⟨memory₁, later⟩ := ih others nests (.inl rfl)
      exact ⟨memory₁, @Comes.lexeme ⟨braces, previous, memory.newline⟩ _ offset _ _ tokens c
        rest ⟨found.lexeme, found.extra, bracesBehind found.lexeme braces⟩ notTrivial read' later⟩

/-- **In another place and behind another newline** the same tokens are read. -/
theorem Comes.moved (comes : Comes memory offset t tokens memory' offset' t') (newline : Bool)
    (place : Nat) :
    ∃ memory₁ tokens₁ place₁ code, Comes ⟨memory.braces, memory.previous, newline⟩ place t tokens₁
        memory₁ place₁ t'
      ∧ Token.MovedBy offset code tokens ∧ Token.MovedBy place code tokens₁ := by
  induction comes generalizing newline place with
  | here => exact ⟨_, [], _, [], .here, rfl, rfl⟩
  | @trivia memory _ offset _ _ tokens c rest extra newline' skipped _ ih =>
      obtain ⟨memory₁, tokens₁, place₁, code, later, moved, moved₁⟩ :=
        ih (newline || newline') (place + 1 + min extra rest.length)
      rw [Nat.add_assoc] at moved moved₁
      exact ⟨memory₁, tokens₁, place₁, _, .trivia skipped later, moved.of_shift, moved₁.of_shift⟩
  | @lexeme memory _ offset _ _ tokens c rest found notTrivial read _ ih =>
      obtain ⟨memory₁, tokens₁, place₁, code, later, moved, moved₁⟩ :=
        ih false (place + 1 + min found.extra rest.length)
      have first (place : Nat) (newline : Bool) : Token.MovedBy place
          [⟨found.lexeme, 0, found.extra + 1, false⟩]
          [⟨found.lexeme, place, place + found.extra + 1, newline⟩] :=
        .singleton _ _ _ (Nat.zero_add _).symm (by omega)
      rw [Nat.add_assoc] at moved moved₁
      exact ⟨memory₁, _, place₁, _, .lexeme notTrivial read later,
        (first offset _).append moved.of_shift, (first place newline).append moved₁.of_shift⟩

/-- The tokens take the text from one place to another, without blanks at its ends. -/
structure Covers (tokens : List Token) (start stop : Nat) : Prop where
  start : tokens.head?.map Token.start = some start
  stop : tokens.getLast?.map Token.stop = some stop

/-- Moved tokens take the text in the other place. -/
theorem Covers.moved {code tokens₁ : List Token} {place width : Nat}
    (covers : Covers tokens offset (offset + width)) (moved : Token.MovedBy offset code tokens)
    (moved₁ : Token.MovedBy place code tokens₁) : Covers tokens₁ place (place + width) := by
  -- A token and the one that it is moved from are at the same end of the tokens.
  have counterpart {distance : Nat} {tokens : List Token}
      (moved : Token.MovedBy distance code tokens) :
      tokens.head?.map Token.start = code.head?.map (fun t => t.start + distance)
        ∧ tokens.getLast?.map Token.stop = code.getLast?.map fun t => t.stop + distance := by
    have first := congrArg (fun placed => placed.head?.map (·.2.1)) moved
    have last := congrArg (fun placed => placed.getLast?.map (·.2.2)) moved
    simp only [List.head?_map, List.getLast?_map, Option.map_map] at first last
    exact ⟨first, last⟩
  obtain ⟨first, last⟩ := counterpart moved
  obtain ⟨first₁, last₁⟩ := counterpart moved₁
  obtain ⟨isFirst, isLast⟩ := covers
  rw [first, Option.map_eq_some_iff] at isFirst
  rw [last, Option.map_eq_some_iff] at isLast
  obtain ⟨t, isFirst, start⟩ := isFirst
  obtain ⟨u, isLast, stop⟩ := isLast
  refine ⟨?_, ?_⟩
  · rw [first₁, isFirst, Option.map_some]
    exact congrArg some (by omega)
  · rw [last₁, isLast, Option.map_some]
    exact congrArg some (by omega)

/-! ## §3. Spelled lexemes. -/

/-- **Where the lexemes fit the open braces, the text `b` in front of `z` is read as these.** -/
def Spells (b : Text) (ls : List Lexeme) (z : Text) : Prop :=
  ∀ (memory : Memory) (offset : Nat), Nests memory.braces ls →
    ∃ memory' tokens offset', Comes memory offset (b ++ z) tokens memory' offset' z
      ∧ tokens.map Token.lexeme = ls

namespace Spells

theorem nil (z : Text) : Spells [] [] z :=
  fun memory offset _ => ⟨memory, [], offset, .here, rfl⟩

/-- One piece behind the other. -/
theorem append (first : Spells b ls (t ++ z)) (second : Spells t ls' z) :
    Spells (b ++ t) (ls ++ ls') z := by
  intro memory offset nests
  obtain ⟨within, isWithin, nests'⟩ := nests.of_append
  obtain ⟨memory₁, tokens₁, offset₁, comes₁, same₁⟩ :=
    first memory offset (Option.isSome_iff_exists.mpr ⟨within, isWithin⟩)
  -- The braces between the pieces are those that the first one leaves open.
  have braces := comes₁.nests
  rw [same₁, isWithin] at braces
  rw [Option.some.inj braces] at nests'
  obtain ⟨memory₂, tokens₂, offset₂, comes₂, same₂⟩ := second memory₁ offset₁ nests'
  refine ⟨memory₂, tokens₁ ++ tokens₂, offset₂, ?_, ?_⟩
  · rw [List.append_assoc]
    exact comes₁.trans comes₂
  · rw [List.map_append, same₁, same₂]

/-- Code that is read wherever it stands. -/
theorem of_scans {names : Bool} {code : List Token} (scans : Scans names b code)
    (ends : names = true → ∀ e ∈ z.head?, isFlag e = false) :
    Spells b (code.map Token.lexeme) z := by
  intro memory offset _
  obtain ⟨memory', tokens, comes, _, moved⟩ := scans memory offset z ends
  exact ⟨memory', tokens, _, comes, moved.map_lexeme⟩

/-- A punctuator of one character. -/
theorem sign {mark : CodePoint} {p : Punct} (notTrivial : trivia? mark z = none)
    (other : mark ∉ ("\"'\x60#/" : Text)) (noName : isFlag mark = false)
    (noNumber : startsNumber mark z = false)
    (single : ∀ braces, punctuator braces mark z = ⟨.punct p, 0, braceAfter p braces⟩) :
    Spells [mark] [.punct p] z := by
  intro memory offset nests
  have inCode : ¬ (mark = .scalar '}' ∧ memory.braces.head? = some .substitution) := by
    rintro ⟨rfl, isHead⟩
    have isBrace : Lexeme.punct .closeBrace = .punct p := congrArg Found.lexeme (single [])
    rw [← isBrace] at nests
    exact nests.head?_ne isHead
  have read := lexeme_sign other noName noNumber inCode memory.previous
  rw [single] at read
  exact ⟨_, _, _, comes_lexeme (t := []) offset notTrivial read, rfl⟩

theorem comma : Spells "," [.punct .comma] z :=
  sign rfl (by decide) (by decide) rfl fun _ => rfl

theorem colon : Spells ":" [.punct .colon] z :=
  of_scans (scans_mark (fun _ => rfl) (by decide) (by decide) (fun _ => rfl) fun _ _ => rfl) nofun

theorem openBrace : Spells "\x7b" [.punct .openBrace] z :=
  sign rfl (by decide) (by decide) rfl fun _ => rfl

theorem closeBrace : Spells "\x7d" [.punct .closeBrace] z :=
  sign rfl (by decide) (by decide) rfl fun _ => rfl

theorem blank (blank : IsBlank b) : Spells b [] z :=
  of_scans (scans_blank blank) nofun

/-- A name that does not go on. -/
theorem name {name : Text} (isName : StackLint.IsName name)
    (ends : ∀ e ∈ z.head?, isFlag e = false) : Spells name [.word name] z := by
  obtain ⟨c, t, rfl, start, goesOn⟩ := isName
  have scans : Scans true (c :: t) _ :=
    scans_name (trivia?_of_isFlag (isFlag_of_start start)) start goesOn
  exact of_scans scans fun _ => ends

/-- The value of a property. -/
theorem property {name : Text} (isName : StackLint.IsName name) (spells : Spells b ls z) :
    Spells (name ++ ": " ++ b) (.word name :: .punct .colon :: ls) z := by
  have key : Spells (name ++ ":") [.word name, .punct .colon] (.scalar ' ' :: (b ++ z)) :=
    (Spells.name isName (by rintro _ ⟨⟩; rfl)).append colon
  have gap : Spells (" " : Text) [] (b ++ z) := blank (by decide)
  have whole := key.append (gap.append spells)
  rw [show name ++ ": " ++ b = name ++ ":" ++ (" " ++ b) by simp only [List.append_assoc]; rfl]
  exact whole

/-- Code in braces, which blanks keep apart from it. -/
theorem inBraces {lead trail : Text} (isLead : IsBlank lead)
    (isTrail : IsBlank trail)
    (spells : Spells b ls (trail ++ .scalar '}' :: z)) :
    Spells ("\x7b" ++ lead ++ b ++ trail ++ "\x7d")
      (.punct .openBrace :: (ls ++ [.punct .closeBrace])) z := by
  have closes : Spells (trail ++ "\x7d") [.punct .closeBrace] z := (blank isTrail).append closeBrace
  have inner : Spells (b ++ (trail ++ "\x7d")) (ls ++ [.punct .closeBrace]) z := by
    refine append ?_ closes
    rw [List.append_assoc]
    exact spells
  simp only [List.append_assoc]
  exact openBrace.append ((blank isLead).append inner)

end Spells

/-- **The code of a member:** it spells these lexemes in front of a blank, a newline or a
comma. -/
def IsMember (b : Text) (ls : List Lexeme) : Prop :=
  ∀ d y, d ∈ (" \n,\x7b" : Text) → Spells b ls (d :: y)

/-- Members with commas and blanks between them. -/
theorem IsMember.join {gap : Text} (isGap : IsBlank gap)
    {parts : List (Text × List Lexeme)} (each : ∀ part ∈ parts, IsMember part.1 part.2) :
    IsMember (Text.join ("," ++ gap) (parts.map Prod.fst)) (commas (parts.map Prod.snd)) := by
  intro d y begins
  induction parts with
  | nil => exact .nil _
  | cons part parts ih =>
      obtain ⟨first, others⟩ := List.forall_mem_cons.mp each
      cases parts with
      | nil =>
          show Spells (List.intercalate _ [part.1]) (List.intercalate _ [part.2]) _
          rw [List.intercalate_singleton, List.intercalate_singleton]
          exact first d y begins
      | cons next parts =>
          show Spells (List.intercalate ("," ++ gap) (part.1 :: next.1 :: parts.map Prod.fst))
            (List.intercalate _ (part.2 :: next.2 :: parts.map Prod.snd)) _
          rw [List.intercalate_cons_cons, List.intercalate_cons_cons]
          exact (Spells.append (first _ _ (by decide)) (Spells.comma.append (.blank isGap))).append
            (ih others)

end Scan

/-! ## §4. Code of a text. -/

namespace Layout

open Scan

variable {L : Layout} {i j : Nat} {c d : CodePoint} {x y : Text}

/-- The tokens from `i` up to `j`. -/
def between (L : Layout) (i j : Nat) : List Token :=
  (L.tokens.take j).drop i

theorem le_length_take (before : i ≤ j) (inside : j ≤ L.size) : i ≤ (L.tokens.take j).length := by
  rw [List.length_take]
  exact Nat.le_min.mpr ⟨before, Nat.le_trans before inside⟩

theorem between_succ (before : i ≤ j) (inside : j < L.size) :
    L.between i (j + 1) = L.between i j ++ [L.token j] := by
  unfold between
  rw [L.token_of_lt inside, List.take_succ_eq_append_getElem inside,
    List.drop_append_of_le_length (le_length_take before (Nat.le_of_lt inside))]
  rfl

/-- The tokens from `i` on. -/
theorem drop_eq_between (before : i ≤ j) (inside : j ≤ L.size) :
    L.tokens.drop i = L.between i j ++ L.tokens.drop j := by
  unfold between
  rw [← List.drop_append_of_le_length (le_length_take before inside), List.take_append_drop]

/-- **The way over the tokens** from `i` up to `j`. -/
theorem exists_comes (less : i < j) (inside : j ≤ L.size) :
    ∃ memory memory', Comes memory (L.startAt i) (L.text.drop (L.startAt i)) (L.between i j)
      memory' (L.stopBefore j) (L.text.drop (L.stopBefore j)) := by
  obtain ⟨last, rfl⟩ : ∃ last, j = last + 1 := ⟨j - 1, by omega⟩
  obtain ⟨memory, b, e, rest, found, way⟩ := L.exists_way (Nat.lt_of_lt_of_le less inside)
  have before : i ≤ last := Nat.le_of_lt_succ less
  have split : L.token i :: (L.tokens.drop (i + 1) ++ [L.final])
      = L.between i last ++ L.token last :: (L.tokens.drop (last + 1) ++ [L.final]) := by
    rw [← List.cons_append, ← List.cons_append, ← L.drop_eq_cons (Nat.lt_of_lt_of_le less inside),
      ← L.drop_eq_cons inside, ← List.append_assoc, drop_eq_between before (Nat.le_of_lt inside)]
  have run := way.arrival.later
  rw [split] at run
  obtain ⟨memory', e', rest', found', comes, notTrivial, read, isToken, _⟩ :=
    Scan.exists_comes run (L.token_spec inside).1
  have step : Comes memory' (L.token last).start (e' :: rest')
      [⟨found'.lexeme, (L.token last).start, (L.token last).start + found'.extra + 1,
        memory'.newline⟩] found'.memory
      ((L.token last).start + 1 + min found'.extra rest'.length) (rest'.drop found'.extra) :=
    .lexeme notTrivial read .here
  have place : (L.token last).start + 1 + min found'.extra rest'.length = L.stopBefore (last + 1) := by
    have stop := congrArg Token.stop isToken
    rw [Nat.min_eq_left (lexeme_fits read).extra_le]
    show _ = (L.token last).stop
    simp only at stop
    omega
  rw [← isToken, place] at step
  have whole := comes.trans step
  rw [← between_succ before inside] at whole
  obtain ⟨text, isText, isPlace⟩ := whole.exists_append
  have left : rest'.drop found'.extra = L.text.drop (L.stopBefore (last + 1)) := by
    rw [isPlace, ← List.drop_drop]
    show _ = List.drop text.length (L.text.drop (L.startAt i))
    rw [show L.text.drop (L.startAt i) = _ from isText, List.drop_left]
  rw [left] at whole
  exact ⟨memory, found'.memory, whole⟩

/-- **Code that can be read in another place:** the tokens from `i` up to `j` are those of a
phrase.  The last one is closed, something stands behind it, and no braced escape is left open
to what stands there. -/
structure Portable (L : Layout) (i j : Nat) (ls : List Lexeme) : Prop where
  less : i < j
  inside : j ≤ L.size
  phrase : Phrase ls
  lexemes : (L.between i j).map Token.lexeme = ls
  closed : (L.token (j - 1)).isClosed L.text = true
  more : L.text.drop (L.stopBefore j) ≠ []
  escapes : CodePoint.scalar '\\' ∈ L.text.slice (L.startAt i) (L.stopBefore j) →
    CodePoint.scalar '}' ∈ L.text.drop (L.stopBefore j)

variable {ls : List Lexeme}

/-- **The code is read as its lexemes in another place, too,** where a blank, a comma or a brace
follows it, and up to there. -/
theorem Portable.exists_comes (portable : L.Portable i j ls) {memory : Memory}
    (nests : Nests memory.braces ls) (offset : Nat) (begins : d ∈ (" \n,\x7b\x7d" : Text)) :
    let b := L.text.slice (L.startAt i) (L.stopBefore j)
    ∃ memory' tokens, Comes memory offset (b ++ d :: y) tokens memory' (offset + b.length) (d :: y)
      ∧ tokens.map Token.lexeme = ls ∧ Covers tokens offset (offset + b.length) := by
  intro b
  obtain ⟨less, inside, phrase, same, closed, more, escapes⟩ := portable
  obtain ⟨memory₀, memory₁, comes⟩ := L.exists_comes less inside
  obtain ⟨c, x, left⟩ := List.exists_cons_of_ne_nil more
  have wide := L.startAt_le_stopBefore less
  have split : L.text.drop (L.startAt i) = b ++ c :: x := by
    have behind : L.text.drop (L.stopBefore j)
        = (L.text.drop (L.startAt i)).drop (L.stopBefore j - L.startAt i) := by
      rw [List.drop_drop, Nat.add_sub_cancel' wide]
    rw [← left, behind]
    exact (List.take_append_drop _ _).symm
  have written : ∀ u ∈ L.between i j, u.lexeme.IsWritten := by
    intro u isToken
    refine phrase.written _ ?_
    rw [← same]
    exact List.mem_map_of_mem isToken
  have noSlash : ∀ u ∈ (L.between i j).head?, u.lexeme.isSlash = false := by
    intro u isHead
    refine phrase.head_isSlash _ ?_
    rw [← same, List.head?_map, Option.mem_def.mp isHead]
    rfl
  -- Behind a comma no slash of the phrase begins a regular expression.
  have calm : Calm (some (.punct .comma)) (L.between i j) := by
    refine ⟨_, rfl, ?_⟩
    rw [same]
    exact List.isChain_cons.mpr ⟨phrase.precedes_head _, phrase.chain⟩
  have ends : EndsClosed L.text (L.between i j) (L.stopBefore j) := by
    obtain ⟨last, rfl⟩ : ∃ last, j = last + 1 := ⟨j - 1, by omega⟩
    refine ⟨L.token last, ?_, rfl, closed⟩
    rw [between_succ (Nat.le_of_lt_succ less) inside, List.getLast?_concat]
  rw [left, split] at comes
  rw [← same] at nests
  obtain ⟨memory₂, comes₂⟩ := comes.elsewhere written nests (.inr noSlash)
  have comes₃ := comes₂.exchange (y := y) L.text (joint_of_begins begins)
    (fun backslash _ => left ▸ escapes backslash) (.inl calm) fun _ => .inr ⟨split, ends⟩
  obtain ⟨memory₄, comes₄⟩ := comes₃.elsewhere written nests (.inr noSlash)
  obtain ⟨memory₅, tokens, place, code, comes₅, moved, moved'⟩ :=
    comes₄.moved memory.newline offset
  obtain ⟨between, isBetween, isPlace⟩ := comes₅.exists_append
  obtain rfl := List.append_cancel_right isBetween
  rw [isPlace] at comes₅
  refine ⟨memory₅, tokens, comes₅, ?_, ?_⟩
  · rw [moved'.map_lexeme, ← moved.map_lexeme, same]
  -- In the text the tokens take the whole code.
  have width : L.stopBefore j = L.startAt i + b.length := by
    have inText := L.stopBefore_le j
    unfold b Text.slice
    rw [List.length_take, List.length_drop]
    omega
  have covers : Covers (L.between i j) (L.startAt i) (L.startAt i + b.length) := by
    refine ⟨?_, ?_⟩
    · have isHead : (L.between i j).head? = some (L.token i) := by
        unfold between
        rw [List.head?_drop, List.getElem?_take_of_lt less,
          List.getElem?_eq_getElem (Nat.lt_of_lt_of_le less inside)]
        exact congrArg some (L.token_of_lt (Nat.lt_of_lt_of_le less inside)).symm
      rw [isHead]
      rfl
    · obtain ⟨last, isLast, stop, _⟩ := ends
      rw [isLast, ← width, ← stop]
      rfl
  exact covers.moved moved moved'

/-- **The code spells its lexemes.** -/
theorem Portable.spells (portable : L.Portable i j ls) (begins : d ∈ (" \n,\x7b\x7d" : Text)) :
    Spells (L.text.slice (L.startAt i) (L.stopBefore j)) ls (d :: y) := by
  intro memory offset nests
  obtain ⟨memory', tokens, comes, lexemes, _⟩ := portable.exists_comes nests offset begins
  exact ⟨memory', tokens, _, comes, lexemes⟩

end Layout

namespace Source

/-- The lexemes of the tokens that begin in a node. -/
def lexemesOf (s : Source) (n : Tree) : List Lexeme :=
  match tokenize s.text with
  | .error _ => []
  | .ok tokens =>
      (tokens.filter fun t => n.info.start ≤ t.start && t.start < n.info.stop).map Token.lexeme

/-- The lexemes of a node that begins and ends with these tokens. -/
theorem lexemesOf_eq {s : Source} {L : Layout} {n : Tree} {i j : Nat} (text : L.text = s.text)
    (before : i ≤ j) (inside : j ≤ L.size) (range : n.info = ⟨L.startAt i, L.stopBefore j⟩) :
    s.lexemesOf n = (L.between i j).map Token.lexeme := by
  have split : L.tokens ++ [L.final]
      = L.tokens.take i ++ (L.between i j ++ (L.tokens.drop j ++ [L.final])) := by
    rw [← List.append_assoc (L.between i j), ← L.drop_eq_between before inside, ← List.append_assoc,
      List.take_append_drop]
  have front : ∀ t ∈ L.tokens.take i, ¬ (L.startAt i ≤ t.start && t.start < L.stopBefore j) = true := by
    intro t isToken
    have ends := L.stop_le_of_mem_take isToken
    have gap := L.stopBefore_le_startAt i
    have wide := L.start_lt_stop_of_mem (List.mem_of_mem_take isToken)
    simp only [Bool.and_eq_true, decide_eq_true_eq]
    omega
  have middle : ∀ t ∈ L.between i j, (L.startAt i ≤ t.start && t.start < L.stopBefore j) = true := by
    intro t isToken
    have isFront := List.mem_of_mem_drop isToken
    have behind := L.le_start_of_mem_drop (List.mem_append_left _
      (by rw [L.drop_eq_between before inside]; exact List.mem_append_left _ isToken))
    have ends := L.stop_le_of_mem_take isFront
    have wide := L.start_lt_stop_of_mem (List.mem_of_mem_take isFront)
    simp only [Bool.and_eq_true, decide_eq_true_eq]
    omega
  have back : ∀ t ∈ L.tokens.drop j ++ [L.final],
      ¬ (L.startAt i ≤ t.start && t.start < L.stopBefore j) = true := by
    intro t isToken
    have behind := L.le_start_of_mem_drop isToken
    have ends := L.stopBefore_le_startAt j
    simp only [Bool.and_eq_true, decide_eq_true_eq]
    omega
  unfold lexemesOf
  rw [← text, L.scanned, split, range]
  simp only [List.filter_append, List.filter_eq_nil_iff.mpr front, List.filter_eq_nil_iff.mpr back,
    List.filter_eq_self.mpr middle, List.nil_append, List.append_nil]

end Source

/-! ## §5. Spelled statements. -/

open Scan in
/-- The statement that assigns a spelled value to `x`. -/
theorem Scan.Spells.assigned {b : Text} {value : Shape} (spells : Spells b value.lexemes " ;") :
    Spells ("x = " ++ b ++ " ;") (value.assigned.lexemes ++ [.punct .semicolon]) [] := by
  have gap {z : Text} : Spells " " [] z := .blank (by decide)
  have equals : Spells "=" [.punct .assign] (.scalar ' ' :: (b ++ " ;")) :=
    .sign rfl (by decide) (by decide) rfl fun _ => rfl
  have target : Spells "x" [.word "x"]
      (.scalar ' ' :: .scalar '=' :: .scalar ' ' :: (b ++ " ;")) :=
    .name isPlainName_x.name (by rintro _ ⟨⟩; rfl)
  have front : Spells "x = " [.word "x", .punct .assign] (b ++ " ;") :=
    target.append (gap.append (equals.append gap))
  have semicolon : Spells ";" [.punct .semicolon] [] :=
    .of_scans (scans_mark (fun _ => rfl) (by decide) (by decide) (fun _ => rfl) fun _ _ => rfl) nofun
  have back : Spells " ;" [.punct .semicolon] [] := gap.append semicolon
  rw [lexemes_assigned]
  refine Spells.append ?_ back
  rw [List.append_nil]
  exact front.append spells

/-- **A spelled statement is read back** without complaints. -/
theorem parse_spelled {value : Shape} {b : Text} {budget : Nat} (printable : Printable value)
    (shallow : value.levels + 3 ≤ Parser.maxNesting) (room : value.calls + 3 ≤ budget)
    (spells : Scan.Spells b value.lexemes " ;") :
    ∃ p, parseWithin budget ("x = " ++ b ++ " ;") = .ok p ∧ p.complaints = []
      ∧ p.tree.shape = .program value.assigned := by
  have nests : Scan.Nests [] (value.assigned.lexemes ++ [.punct .semicolon]) :=
    .of_contained (printable.assigned.phrase.contained.append (.cons rfl .nil)) []
  obtain ⟨memory, tokens, place, comes, same⟩ := spells.assigned .start 0 nests
  rw [List.append_nil] at comes
  have scanned : tokenize ("x = " ++ b ++ " ;")
      = .ok (tokens ++ [⟨.endOfText, place, place, memory.newline⟩]) := by
    show Scan.tokensFrom .start 0 0 _ = _
    rw [comes.tokensFrom_eq, Scan.tokensFrom_nil]
    rfl
  have noArrow : ∀ l ∈ value.assigned.lexemes ++ [Lexeme.punct .semicolon], l.isHarmless = true :=
    List.forall_mem_append.mpr
      ⟨printable.assigned.phrase.contained.harmless, List.forall_mem_singleton.mpr rfl⟩
  have arrows : ∀ t ∈ tokens, t.lexeme = .punct .arrow → t.newlineBefore = false := by
    intro t inside isArrow
    have harmless := noArrow t.lexeme (same ▸ List.mem_map_of_mem inside)
    rw [isArrow] at harmless
    cases harmless
  obtain ⟨parsed, sees⟩ := parse_tokens budget scanned same rfl arrows
  exact printable.reads_back shallow room parsed sees

end StackLint
