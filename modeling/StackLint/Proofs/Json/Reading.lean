/-
  StackLint.Proofs.Json.Reading
  ─────────────────────────────
  **READING JSON NEVER RUNS SHORT.**

  Every reader takes a part of the text in front, so a budget of two steps per
  code point is never spent: a larger one reads the same.  Less room on the stack
  changes nothing either, but that some texts are nested too deep for it.
  What is not read is malformed, unless there is an integer with more digits in a
  row than are allowed, or more brackets are opened than there is room for.

  `Reads` says this of one reader on one text.  One rule for each way to put
  readers together carries it from the parts of a value to the whole.
-/
import Mathlib.Data.List.TakeWhile
import StackLint.Json.Reader
import StackLint.Proofs.Except

namespace StackLint

namespace JsonReader

/-! ## §1. Rests. -/

/-- What is left of a text from which something was taken in front. -/
def IsRest (behind t : Text) : Prop :=
  behind <:+ t ∧ behind.length < t.length

theorem IsRest.trans_suffix {s t u : Text} (first : s <:+ t) (second : IsRest t u) : IsRest s u :=
  ⟨first.trans second.1, Nat.lt_of_le_of_lt first.length_le second.2⟩

theorem IsRest.of_suffix {s t u : Text} (first : IsRest s t) (second : t <:+ u) : IsRest s u :=
  ⟨first.1.trans second, Nat.lt_of_lt_of_le first.2 second.length_le⟩

theorem IsRest.tail {s t : Text} (c : CodePoint) (suffix : s <:+ t) : IsRest s (c :: t) :=
  ⟨suffix.trans (List.suffix_cons c t), Nat.lt_succ_of_le suffix.length_le⟩

theorem skipSpace_suffix (t : Text) : skipSpace t <:+ t :=
  List.dropWhile_suffix _

theorem stringBody?_rest {skip : Nat} {t value behind : Text}
    (read : stringBody? skip t = some (value, behind)) : IsRest behind t := by
  fun_induction stringBody? skip t generalizing value with
  | case1 => cases read
  | case2 skip c rest ih => exact (ih read).of_suffix (List.suffix_cons c rest)
  | case3 rest =>
      cases read
      exact .tail _ (List.suffix_refl _)
  | case4 => cases read
  | case5 => cases read
  | case6 => cases read
  | case7 =>
      rename_i ih
      obtain ⟨⟨inner, rest⟩, found, same⟩ := Option.map_eq_some_iff.mp read
      cases same
      exact .tail _ ((ih found).1.trans (List.suffix_cons _ _))
  | case8 c rest notQuote notControl notEscape ih =>
      obtain ⟨⟨inner, rest⟩, found, same⟩ := Option.map_eq_some_iff.mp read
      cases same
      exact .tail c (ih found).1

/-- More digits in a row than an integer may have. -/
def HasLongInteger (count : Nat) (t : Text) : Prop :=
  maxIntegerDigits < count
    ∧ ∃ run : Text, run <:+: t ∧ run.length = count ∧ ∀ c ∈ run, c.isAsciiDigit = true

theorem HasLongInteger.of_suffix {count : Nat} {s t : Text} (long : HasLongInteger count s)
    (suffix : s <:+ t) : HasLongInteger count t := by
  obtain ⟨tooMany, run, inside, length, digits⟩ := long
  exact ⟨tooMany, run, inside.trans suffix.isInfix, length, digits⟩

theorem digits_suffix (t : Text) : (digits t).2 <:+ t :=
  List.dropWhile_suffix _

/-- Digits that are read are taken from the text. -/
theorem digits_rest {t : Text} (some_ : (digits t).1 ≠ []) : IsRest (digits t).2 t := by
  refine ⟨digits_suffix t, ?_⟩
  have whole := congrArg List.length
    (List.takeWhile_append_dropWhile (p := CodePoint.isAsciiDigit) (l := t))
  have taken : 0 < (t.takeWhile CodePoint.isAsciiDigit).length := by
    refine List.length_pos_iff.mpr fun none_ => some_ ?_
    rw [digits, none_, List.map_nil]
  rw [List.length_append] at whole
  show (t.dropWhile CodePoint.isAsciiDigit).length < t.length
  omega

theorem fraction_suffix (t : Text) : (fraction t).2 <:+ t := by
  cases t with
  | nil => exact List.suffix_refl _
  | cons c rest =>
      rw [fraction]
      split
      · split
        · exact List.suffix_refl _
        · exact (digits_suffix rest).trans (List.suffix_cons c rest)
      · exact List.suffix_refl _

theorem exponent?_suffix {t behind : Text} {e : Int} (read : exponent? t = some (e, behind)) :
    behind <:+ t := by
  cases t with
  | nil => cases read
  | cons c rest =>
      simp only [exponent?] at read
      split at read
      · split at read
        · cases read
        · next ds rest' _ found =>
            cases read
            have suffix := congrArg (· <:+ _) (congrArg Prod.snd found) ▸ digits_suffix _
            refine List.IsSuffix.trans (suffix.trans ?_) (List.suffix_cons c rest)
            -- What is behind the sign, if there is one.
            split
            · split
              · exact List.suffix_cons _ _
              · split
                · exact List.suffix_cons _ _
                · exact List.suffix_refl _
            · exact List.suffix_refl _
      · cases read

/-- The digits in front of a number, and what follows them. -/
theorem whole_spec (c : CodePoint) (rest : Text) :
    ∃ whole behind, (if c = .scalar '0' then ([0], rest) else digits (c :: rest)) = (whole, behind)
      ∧ (whole ≠ [] → IsRest behind (c :: rest))
      ∧ (maxIntegerDigits < whole.length → HasLongInteger whole.length (c :: rest)) := by
  by_cases zero : c = .scalar '0'
  · rw [if_pos zero]
    refine ⟨[0], rest, rfl, fun _ => .tail c (List.suffix_refl _), ?_⟩
    intro tooMany
    exact absurd tooMany (by decide)
  · rw [if_neg zero]
    refine ⟨_, _, rfl, digits_rest, ?_⟩
    intro tooMany
    refine ⟨tooMany, _, (List.takeWhile_prefix _).isInfix, List.length_map _ |>.symm, ?_⟩
    intro d inside
    exact List.mem_takeWhile_imp inside

/-- How many brackets are opened in a text. -/
def openings (t : Text) : Nat :=
  t.countP fun c => c == .scalar '[' || c == .scalar '\x7b'

/-- **What a failure says of the text,** where there is room for so many arrays and objects in
one another. -/
def Blames (room : Nat) (t : Text) : JsonFailure → Prop
  | .malformed => True
  | .integerTooLong count => HasLongInteger count t
  | .nestedTooDeep => room < openings t

theorem Blames.of_suffix {room : Nat} {s t : Text} {failure : JsonFailure}
    (blames : Blames room s failure) (suffix : s <:+ t) : Blames room t failure := by
  cases failure with
  | malformed => trivial
  | integerTooLong count => exact HasLongInteger.of_suffix blames suffix
  | nestedTooDeep => exact Nat.lt_of_lt_of_le blames suffix.sublist.countP_le

theorem unsigned_spec (negative : Bool) (t : Text) :
    (∀ v behind, unsigned negative t = .ok (v, behind) → IsRest behind t)
      ∧ ∀ failure, unsigned negative t = .error failure → ∀ room, Blames room t failure := by
  cases t with
  | nil =>
      refine ⟨nofun, ?_⟩
      rintro _ ⟨⟩ _
      trivial
  | cons c rest =>
      obtain ⟨whole, behind, isWhole, isRest, long⟩ := whole_spec c rest
      simp only [unsigned, isWhole]
      split
      · refine ⟨nofun, ?_⟩
        rintro _ ⟨⟩ _
        trivial
      · next some_ =>
        have isRest := isRest some_
        split
        · split
          · next tooMany =>
              refine ⟨nofun, ?_⟩
              rintro _ ⟨⟩ _
              exact long tooMany
          · refine ⟨?_, nofun⟩
            intro v rest' same
            cases same
            exact isRest
        · refine ⟨?_, nofun⟩
          intro v rest' same
          cases same
          exact isRest.trans_suffix (fraction_suffix behind)
        · next found =>
          refine ⟨?_, nofun⟩
          intro v rest' same
          cases same
          exact isRest.trans_suffix ((exponent?_suffix found).trans (fraction_suffix behind))

theorem scalar_spec (t : Text) :
    (∀ v behind, scalar t = .ok (v, behind) → IsRest behind t)
      ∧ ∀ failure, scalar t = .error failure → ∀ room, Blames room t failure := by
  unfold scalar
  split
  · next word value found =>
      refine ⟨?_, nofun⟩
      intro v behind same
      cases same
      have isWord := List.find?_some found
      have some_ : ∀ entry ∈ literals, 0 < entry.1.length := by decide
      have front := List.isPrefixOf_iff_prefix.mp isWord
      refine ⟨List.drop_suffix _ _, ?_⟩
      have fits := front.length_le
      have positive := some_ _ (List.mem_of_find?_eq_some found)
      rw [List.length_drop]
      simp only at fits positive
      omega
  · split
    · refine ⟨nofun, ?_⟩
      rintro _ ⟨⟩ _
      trivial
    · next c rest _ =>
        split
        · obtain ⟨ok, blames⟩ := unsigned_spec true rest
          exact ⟨fun v behind read => (ok v behind read).of_suffix (List.suffix_cons c rest),
            fun failure failed room =>
              (blames failure failed room).of_suffix (List.suffix_cons c rest)⟩
        · exact unsigned_spec false (c :: rest)

theorem string_spec {t value behind : Text} (read : string t = .ok (value, behind)) :
    IsRest behind t := by
  cases t with
  | nil => cases read
  | cons c rest =>
      rw [string] at read
      split at read
      · split at read
        · next found =>
            cases read
            exact .tail c (stringBody?_rest found).1
        · cases read
      · cases read

theorem string_malformed {t : Text} {failure : JsonFailure} (failed : string t = .error failure) :
    failure = .malformed := by
  cases t with
  | nil =>
      cases failed
      rfl
  | cons c rest =>
      rw [string] at failed
      split at failed
      · split at failed
        · cases failed
        · cases failed
          rfl
      · cases failed
        rfl

theorem expect_spec {expected : Char} {t behind : Text} (read : expect expected t = .ok behind) :
    behind <:+ t := by
  cases t with
  | nil => cases read
  | cons c rest =>
      rw [expect] at read
      split at read
      · cases read
        exact List.suffix_cons c behind
      · cases read

theorem expect_malformed {expected : Char} {t : Text} {failure : JsonFailure}
    (failed : expect expected t = .error failure) : failure = .malformed := by
  cases t with
  | nil =>
      cases failed
      rfl
  | cons c rest =>
      rw [expect] at failed
      split at failed
      · cases failed
      · cases failed
        rfl

/-! ## §2. Readers. -/

/-- **What is known of a reader on a text,** run with a budget: it takes something
in front; its failures have their reasons; with less room it reads the same or finds
the text nested too deep; and with a larger budget it reads the same, if it reads
anything or the budget is as large as it needs. -/
structure Reads {α : Type} (reader : (budget room : Nat) → Except JsonFailure (α × Text))
    (t : Text) (need budget : Nat) : Prop where
  rest : ∀ {room a behind}, reader budget room = .ok (a, behind) → IsRest behind t
  blames : ∀ {room failure}, reader budget room = .error failure → Blames room t failure
  narrow : ∀ {room wider}, room ≤ wider →
    reader budget room = .error .nestedTooDeep ∨ reader budget room = reader budget wider
  settled : ∀ {room other}, budget ≤ other →
    need ≤ budget ∨ (∃ found, reader budget room = .ok found) →
      reader other room = reader budget room

namespace Reads
variable {α β : Type} {reader : (budget room : Nat) → Except JsonFailure (α × Text)}
  {s t : Text} {need budget : Nat}

/-- A reader without a budget, which needs no room. -/
theorem leaf {result : Except JsonFailure (α × Text)}
    (rest : ∀ a behind, result = .ok (a, behind) → IsRest behind t)
    (blames : ∀ failure, result = .error failure → ∀ room, Blames room t failure) :
    Reads (fun _ _ => result) t need budget where
  rest := rest _ _
  blames := fun failed => blames _ failed _
  narrow := fun _ => .inr rfl
  settled := fun _ _ => rfl

theorem malformed : Reads (fun _ _ => (.error .malformed : Except JsonFailure (α × Text))) t need
    budget := by
  refine leaf nofun ?_
  rintro _ ⟨⟩ _
  trivial

/-- A value that is there without reading on. -/
theorem done (a : α) (isRest : IsRest s t) :
    Reads (fun _ _ => (.ok (a, s) : Except JsonFailure (α × Text))) t need budget :=
  leaf (by rintro _ _ ⟨⟩; exact isRest) nofun

/-- What is read of a rest is read of the whole, and may need more. -/
theorem of_suffix {less : Nat} (reads : Reads reader s less budget) (suffix : s <:+ t)
    (enough : less ≤ need) : Reads reader t need budget where
  rest := fun read => (reads.rest read).of_suffix suffix
  blames := fun failed => (reads.blames failed).of_suffix suffix
  narrow := reads.narrow
  settled := fun larger why => reads.settled larger (why.imp_left (Nat.le_trans enough))

/-- A reader that goes on with another one, which takes something as well. -/
theorem bind {next : α × Text → (budget room : Nat) → Except JsonFailure (β × Text)}
    (first : Reads reader t need budget)
    (second : ∀ a behind, IsRest behind t → Reads (next (a, behind)) behind need budget) :
    Reads (fun budget room => reader budget room >>= fun found => next found budget room) t need
      budget where
  rest := by
    intro room b behind read
    obtain ⟨⟨a, middle⟩, found, read⟩ := bind_eq_ok.mp read
    have isRest := first.rest found
    exact ((second a middle isRest).rest read).of_suffix isRest.1
  blames := by
    intro room failure failed
    cases found : reader budget room with
    | error reason =>
        simp only [found] at failed
        cases failed
        exact first.blames found
    | ok pair =>
        obtain ⟨a, middle⟩ := pair
        simp only [found] at failed
        have isRest := first.rest found
        exact ((second a middle isRest).blames failed).of_suffix isRest.1
  narrow := by
    intro room wider le
    rcases first.narrow le with deep | same
    · exact .inl (by simp only [deep]; rfl)
    · simp only [same]
      cases found : reader budget wider with
      | error reason => exact .inr rfl
      | ok pair =>
          obtain ⟨a, middle⟩ := pair
          exact (second a middle (first.rest found)).narrow le
  settled := by
    intro room other larger why
    have firstWhy : need ≤ budget ∨ ∃ found, reader budget room = .ok found := by
      refine why.imp_right ?_
      rintro ⟨found, read⟩
      obtain ⟨pair, isFound, _⟩ := bind_eq_ok.mp read
      exact ⟨pair, isFound⟩
    simp only [first.settled larger firstWhy]
    cases found : reader budget room with
    | error reason => rfl
    | ok pair =>
        obtain ⟨a, middle⟩ := pair
        rw [found] at why
        exact (second a middle (first.rest found)).settled larger why

/-- A reader behind something that is read without a budget. -/
theorem after {γ : Type} {front : Except JsonFailure γ}
    {next : γ → (budget room : Nat) → Except JsonFailure (α × Text)}
    (malformed : ∀ failure, front = .error failure → failure = .malformed)
    (second : ∀ c, front = .ok c → Reads (next c) t need budget) :
    Reads (fun budget room => front >>= fun c => next c budget room) t need budget := by
  cases front with
  | error failure =>
      obtain rfl := malformed failure rfl
      exact .malformed
  | ok c => exact second c rfl

/-- What is done with a value changes nothing. -/
theorem map (f : α → β) (reads : Reads reader t need budget) :
    Reads (fun budget room => reader budget room >>= fun found => .ok (f found.1, found.2)) t need
      budget where
  rest := by
    intro room b behind read
    obtain ⟨⟨a, middle⟩, found, same⟩ := bind_eq_ok.mp read
    cases same
    exact reads.rest found
  blames := by
    intro room failure failed
    cases found : reader budget room with
    | error reason =>
        simp only [found] at failed
        cases failed
        exact reads.blames found
    | ok pair =>
        simp only [found] at failed
        cases failed
  narrow := by
    intro room wider le
    rcases reads.narrow le with deep | same
    · exact .inl (by simp only [deep]; rfl)
    · exact .inr (by simp only [same])
  settled := by
    intro room other larger why
    have innerWhy : need ≤ budget ∨ ∃ found, reader budget room = .ok found := by
      refine why.imp_right ?_
      rintro ⟨found, read⟩
      obtain ⟨pair, isFound, _⟩ := bind_eq_ok.mp read
      exact ⟨pair, isFound⟩
    simp only [reads.settled larger innerWhy]

/-- What is inside of a bracket is read if there is room for it. -/
theorem nested {c : CodePoint} {rest : Text} (reads : Reads reader s need budget)
    (suffix : s <:+ rest) (opens : openings (c :: rest) = openings rest + 1) :
    Reads (fun budget => JsonReader.nested (reader budget)) (c :: rest) need budget where
  rest := by
    intro room a behind read
    cases room with
    | zero => cases read
    | succ room => exact (reads.rest read).of_suffix (suffix.trans (List.suffix_cons c rest))
  blames := by
    intro room failure failed
    cases room with
    | zero =>
        cases failed
        show 0 < openings (c :: rest)
        omega
    | succ room =>
        have inside := (reads.blames failed).of_suffix suffix
        cases failure with
        | malformed => trivial
        | integerTooLong count =>
            exact HasLongInteger.of_suffix inside (List.suffix_cons c rest)
        | nestedTooDeep =>
            show room + 1 < openings (c :: rest)
            have deep : room < openings rest := inside
            omega
  narrow := by
    intro room wider le
    cases room with
    | zero => exact .inl rfl
    | succ room =>
        obtain ⟨less, rfl⟩ : ∃ less, wider = less + 1 := ⟨wider - 1, by omega⟩
        exact reads.narrow (Nat.le_of_succ_le_succ le)
  settled := by
    intro room other larger why
    cases room with
    | zero => rfl
    | succ room => exact reads.settled larger why

/-- A step of the budget is taken. -/
theorem step (reads : Reads (fun budget => reader (budget + 1)) t need budget) :
    Reads reader t (need + 1) (budget + 1) where
  rest := reads.rest
  blames := reads.blames
  narrow := reads.narrow
  settled := by
    intro room other larger why
    obtain ⟨less, rfl⟩ : ∃ less, other = less + 1 := ⟨other - 1, by omega⟩
    exact reads.settled (Nat.le_of_succ_le_succ larger) (why.imp_left Nat.le_of_succ_le_succ)

end Reads

/-! ## §3. Values. -/

theorem string_reads (t : Text) {need budget : Nat} :
    Reads (fun _ _ => string t) t need budget := by
  refine .leaf (fun _ _ => string_spec) fun failure failed room => ?_
  obtain rfl := string_malformed failed
  trivial

theorem length_skipSpace_le (t : Text) : (skipSpace t).length ≤ t.length :=
  (skipSpace_suffix t).length_le

section
variable {budget : Nat} (readsValue : ∀ t, Reads (value · · t) t (2 * t.length + 1) budget)
  (readsElements : ∀ t, Reads (elements · · t) t (2 * t.length + 2) budget)
  (readsMembers : ∀ read t, Reads (members · · read t) t (2 * t.length + 2) budget)

include readsElements readsMembers in
theorem value_step (t : Text) :
    Reads (fun budget room => value (budget + 1) room t) t (2 * t.length) budget := by
  cases t with
  | nil =>
      simp only [value]
      exact .malformed
  | cons c rest =>
      simp only [value]
      have inside : skipSpace rest <:+ rest := skipSpace_suffix rest
      have shorter := length_skipSpace_le rest
      have enough : 2 * (skipSpace rest).length + 2 ≤ 2 * (c :: rest).length := by
        rw [List.length_cons]
        omega
      -- Behind the bracket of an empty array or object nothing more is read.
      have closed (h : (skipSpace rest).head?.isSome = true) :
          IsRest ((skipSpace rest).drop 1) (skipSpace rest) := by
        refine ⟨List.drop_suffix 1 _, ?_⟩
        cases found : skipSpace rest with
        | nil =>
            rw [found] at h
            cases h
        | cons d rest' => exact Nat.lt_succ_self _
      by_cases isQuote : c = .scalar '"'
      · simp only [if_pos isQuote]
        exact (string_reads _).map Json.string
      by_cases isBracket : c = .scalar '['
      · simp only [if_neg isQuote, if_pos isBracket]
        have opens : openings (c :: rest) = openings rest + 1 := by
          rw [isBracket]
          exact List.countP_cons_of_pos rfl
        by_cases isEmpty : (skipSpace rest).head? = some (.scalar ']')
        · simp only [if_pos isEmpty]
          exact .nested (.done _ (closed (by rw [isEmpty]; rfl))) inside opens
        · simp only [if_neg isEmpty]
          exact .nested (((readsElements _).of_suffix (List.suffix_refl _) enough).map Json.array)
            inside opens
      by_cases isBrace : c = .scalar '\x7b'
      · simp only [if_neg isQuote, if_neg isBracket, if_pos isBrace]
        have opens : openings (c :: rest) = openings rest + 1 := by
          rw [isBrace]
          exact List.countP_cons_of_pos rfl
        by_cases isEmpty : (skipSpace rest).head? = some (.scalar '\x7d')
        · simp only [if_pos isEmpty]
          exact .nested (.done _ (closed (by rw [isEmpty]; rfl))) inside opens
        · simp only [if_neg isEmpty]
          exact .nested
            (((readsMembers _ _).of_suffix (List.suffix_refl _) enough).map Json.object)
            inside opens
      simp only [if_neg isQuote, if_neg isBracket, if_neg isBrace]
      obtain ⟨ok, blames⟩ := scalar_spec (c :: rest)
      exact .leaf ok blames

include readsValue readsElements in
theorem elements_step (t : Text) :
    Reads (fun budget room => elements (budget + 1) room t) t (2 * t.length + 1) budget := by
  simp only [elements]
  refine (readsValue t).bind ?_
  intro item behind isRest
  have suffix := skipSpace_suffix behind
  have taken := isRest.2
  cases found : skipSpace behind with
  | nil =>
      simp only
      exact .malformed
  | cons c rest =>
      rw [found] at suffix
      simp only
      by_cases isEnd : c = .scalar ']'
      · simp only [if_pos isEnd]
        exact .done _ (.of_suffix (.tail c (List.suffix_refl rest)) suffix)
      by_cases isComma : c = .scalar ','
      · simp only [if_neg isEnd, if_pos isComma]
        have left : skipSpace rest <:+ behind :=
          (skipSpace_suffix rest).trans ((List.suffix_cons c rest).trans suffix)
        have shorter := length_skipSpace_le rest
        have fewer := suffix.length_le
        rw [List.length_cons] at fewer
        exact ((readsElements _).of_suffix left (by omega)).map (item :: ·)
      simp only [if_neg isEnd, if_neg isComma]
      exact .malformed

include readsValue readsMembers in
theorem members_step (read : List (Text × Json)) (t : Text) :
    Reads (fun budget room => members (budget + 1) room read t) t (2 * t.length + 1) budget := by
  simp only [members]
  refine .after (fun _ => string_malformed) ?_
  rintro ⟨key, afterKey⟩ isKey
  refine .after (fun _ => expect_malformed) ?_
  intro afterColon isColon
  -- The value lies in what is left of the text.
  have left : skipSpace afterColon <:+ t :=
    (skipSpace_suffix afterColon).trans ((expect_spec isColon).trans
      ((skipSpace_suffix afterKey).trans (string_spec isKey).1))
  have fewer := left.length_le
  refine Reads.of_suffix (Reads.bind (readsValue _) ?_) left (by omega)
  intro item behind isRest
  have suffix := skipSpace_suffix behind
  have taken := isRest.2
  cases found : skipSpace behind with
  | nil =>
      simp only
      exact .malformed
  | cons c rest =>
      rw [found] at suffix
      simp only
      by_cases isEnd : c = .scalar '\x7d'
      · simp only [if_pos isEnd]
        exact .done _ (.of_suffix (.tail c (List.suffix_refl rest)) suffix)
      by_cases isComma : c = .scalar ','
      · simp only [if_neg isEnd, if_pos isComma]
        have left : skipSpace rest <:+ behind :=
          (skipSpace_suffix rest).trans ((List.suffix_cons c rest).trans suffix)
        have shorter := length_skipSpace_le rest
        have fewer := suffix.length_le
        rw [List.length_cons] at fewer
        exact (readsMembers _ _).of_suffix left (by omega)
      simp only [if_neg isEnd, if_neg isComma]
      exact .malformed

end

/-- **Every reader reads so,** whatever the text and the budget are. -/
theorem readers_read (budget : Nat) :
    (∀ t, Reads (value · · t) t (2 * t.length + 1) budget)
      ∧ (∀ t, Reads (elements · · t) t (2 * t.length + 2) budget)
      ∧ ∀ read t, Reads (members · · read t) t (2 * t.length + 2) budget := by
  induction budget with
  | zero =>
      -- Without a budget nothing is read, and none is as large as what is needed.
      have spent {α : Type} {reader : (budget room : Nat) → Except JsonFailure (α × Text)}
          (isSpent : ∀ room, reader 0 room = .error .malformed) (t : Text) (need : Nat) :
          Reads reader t (need + 1) 0 := by
        refine ⟨?_, ?_, ?_, ?_⟩
        · intro room a behind read
          rw [isSpent] at read
          cases read
        · intro room failure failed
          rw [isSpent] at failed
          cases failed
          trivial
        · intro room wider _
          exact .inr ((isSpent room).trans (isSpent wider).symm)
        · rintro room other _ (ample | ⟨found, read⟩)
          · exact absurd ample (Nat.not_succ_le_zero _)
          · rw [isSpent] at read
            cases read
      exact ⟨fun t => spent (fun _ => rfl) t _, fun t => spent (fun _ => rfl) t _,
        fun read t => spent (fun _ => rfl) t _⟩
  | succ budget ih =>
      obtain ⟨readsValue, readsElements, readsMembers⟩ := ih
      exact ⟨fun t => (value_step readsElements readsMembers t).step,
        fun t => (elements_step readsValue readsElements t).step,
        fun read t => (members_step readsValue readsMembers read t).step⟩

end JsonReader

/-! ## §4. Whole texts. -/

namespace Json
open JsonReader

/-- **What a text denotes:** with some budget and some room a value is read, and only
white space is left. -/
def Denotes (t : Text) (v : Json) : Prop :=
  ∃ budget room behind, value budget room (skipSpace t) = .ok (v, behind)
    ∧ skipSpace behind = []

theorem read_eq_ok_of_value {room : Nat} {t behind : Text} {v : Json}
    (found : value (2 * t.length + 1) room (skipSpace t) = .ok (v, behind))
    (isEnd : skipSpace behind = []) : Json.read room t = .ok v := by
  refine bind_eq_ok.mpr ⟨(v, behind), found, ?_⟩
  simp only [isEnd, if_true]
  rfl

/-- **Exactly what a text denotes is read,** unless it is nested too deep for the room. -/
theorem read_eq_ok_iff (room : Nat) (t : Text) (v : Json) :
    Json.read room t = .ok v ↔ Denotes t v ∧ Json.read room t ≠ .error .nestedTooDeep := by
  constructor
  · intro isRead
    refine ⟨?_, by rw [isRead]; nofun⟩
    obtain ⟨⟨w, behind⟩, found, same⟩ := bind_eq_ok.mp isRead
    simp only at same
    split at same
    · next isEnd =>
        cases same
        exact ⟨_, room, behind, found, isEnd⟩
    · cases same
  · rintro ⟨⟨budget, wide, behind, found, isEnd⟩, notDeep⟩
    -- With the budget of the text the same is read, also with less room or more of it.
    have reads := (readers_read (2 * t.length + 1)).1 (skipSpace t)
    have shorter := length_skipSpace_le t
    have both : value (max (2 * t.length + 1) budget) wide (skipSpace t)
        = value budget wide (skipSpace t) :=
      ((readers_read budget).1 _).settled (Nat.le_max_right _ _) (.inr ⟨_, found⟩)
    have same : value (max (2 * t.length + 1) budget) wide (skipSpace t)
        = value (2 * t.length + 1) wide (skipSpace t) :=
      reads.settled (Nat.le_max_left _ _) (.inl (by omega))
    have larger := (same.symm.trans both).trans found
    rcases Nat.le_total room wide with le | le
    · rcases reads.narrow le with deep | isSame
      · refine absurd ?_ notDeep
        unfold Json.read
        rw [deep]
        rfl
      · exact read_eq_ok_of_value (isSame.trans larger) isEnd
    · rcases reads.narrow le with deep | isSame
      · rw [larger] at deep
        cases deep
      · exact read_eq_ok_of_value (isSame.symm.trans larger) isEnd

/-- **A text that is not read has what its failure says.** -/
theorem blames_of_read {room : Nat} {t : Text} {failure : JsonFailure}
    (failed : Json.read room t = .error failure) : Blames room t failure := by
  unfold Json.read at failed
  cases found : value (2 * t.length + 1) room (skipSpace t) with
  | error reason =>
      rw [found] at failed
      cases failed
      exact (((readers_read _).1 _).blames found).of_suffix (skipSpace_suffix t)
  | ok pair =>
      rw [found] at failed
      simp only [bind, Except.bind] at failed
      split at failed
      · cases failed
      · cases failed
        trivial

/-- Digits and nothing else are an integer, which may be too long. -/
theorem read_digits {room n : Nat} (tooMany : maxIntegerDigits < n) :
    Json.read room (List.replicate n (.scalar '1')) = .error (.integerTooLong n) := by
  obtain ⟨k, rfl⟩ : ∃ k, n = k + 1 := ⟨n - 1, by omega⟩
  rw [List.replicate_succ]
  have whole : digits (.scalar '1' :: List.replicate k (.scalar '1'))
      = (1 :: List.replicate k 1, []) := by
    rw [← List.replicate_succ]
    simp [digits, CodePoint.isAsciiDigit, CodePoint.val]
    rfl
  have isInteger : unsigned false (.scalar '1' :: List.replicate k (.scalar '1'))
      = .error (.integerTooLong (k + 1)) := by
    have notZero : ¬ CodePoint.scalar '1' = .scalar '0' := by decide
    simp [unsigned, whole, fraction, exponent?, notZero, tooMany]
  show (unsigned false (.scalar '1' :: List.replicate k (.scalar '1')) >>= _) = _
  rw [isInteger]
  rfl

/-- With a bracket more than there is room for, a row of brackets is nested too deep. -/
theorem value_brackets (room : Nat) {budget : Nat} (ample : 2 * room < budget) :
    value budget room (List.replicate (room + 1) (.scalar '[')) = .error .nestedTooDeep := by
  -- Every bracket but the last one takes a step for its value and one for its first item.
  induction room generalizing budget with
  | zero =>
      obtain ⟨left, rfl⟩ : ∃ left, budget = left + 1 := ⟨budget - 1, by omega⟩
      rfl
  | succ room ih =>
      obtain ⟨left, rfl⟩ : ∃ left, budget = left + 2 := ⟨budget - 2, by omega⟩
      have inner : value left room (List.replicate (room + 1) (.scalar '['))
          = .error .nestedTooDeep := ih (by omega)
      rw [List.replicate_succ] at inner
      show (elements (left + 1) room (.scalar '[' :: List.replicate room (.scalar '['))
        >>= _) = _
      rw [elements, inner]
      rfl

theorem read_brackets (room : Nat) :
    Json.read room (List.replicate (room + 1) (.scalar '[')) = .error .nestedTooDeep := by
  have isOpen : skipSpace (List.replicate (room + 1) (.scalar '['))
      = List.replicate (room + 1) (.scalar '[') := rfl
  unfold Json.read
  rw [isOpen, value_brackets room (by rw [List.length_replicate]; omega)]
  rfl

end Json

end StackLint
