/-
  StackLint.Proofs.View.Basic
  ───────────────────────────
  **TEXTS SEEN FROM AFAR.**

  A `View` looks at texts in such a way that some differences do not show: it
  may move all offsets, give names other names, and leave out tokens that have
  been read long ago.  It never touches a text that means something to the
  parser.  Two texts are alike when they look the same.

  What a token is for does not change under a view (`Token.view_is` and its
  neighbours), and trees are viewed node by node (`Node.view_mk`).
-/
import StackLint.Parse.Statement

namespace StackLint

/-! ## §1. Views. -/

/-- The words that mean something to the parser in some place. -/
def reservedWords : List String :=
  ["abstract", "accessor", "as", "assert", "asserts", "async", "await", "break", "case", "catch",
   "class", "const", "continue", "declare", "default", "delete", "do", "else", "enum", "export",
   "extends", "false", "finally", "for", "from", "function", "get", "global", "if", "implements",
   "import", "in", "infer", "instanceof", "interface", "is", "keyof", "let", "module", "namespace",
   "new", "null", "of", "override", "private", "protected", "public", "readonly", "return",
   "satisfies", "set", "static", "super", "switch", "this", "throw", "true", "try", "type",
   "typeof", "unique", "var", "void", "while", "with", "yield"]

/-- The names of the kinds of lexemes. -/
def kindNames : List String :=
  ["ident", "number", "string", "template", "template_head", "template_middle", "template_tail",
   "regex", "punct", "error", "eof"]

theorem Lexeme.kindName_mem (l : Lexeme) : l.kindName ∈ kindNames := by
  cases l <;> simp [kindName, kindNames]

/-- The texts that a view keeps as they are. -/
inductive Reserved : Text → Prop where
  | short {t : Text} (h : t.length ≤ 1) : Reserved t
  | word {w : String} (h : w ∈ reservedWords) : Reserved (Text.ofString w)
  | punct (p : Punct) : Reserved p.text
  /-- What messages show of a token without a value. -/
  | kind {w : String} (h : w ∈ kindNames) : Reserved (Text.ofString w)

/-- Words of the list are kept. -/
theorem reserved_of_words (words : List Text) (spellings : List String)
    (same : words = spellings.map Text.ofString) (listed : ∀ w ∈ spellings, w ∈ reservedWords) :
    ∀ w ∈ words, Reserved w := by
  intro w inside
  rw [same] at inside
  obtain ⟨spelling, isSpelling, rfl⟩ := List.mem_map.mp inside
  exact .word (listed spelling isSpelling)

/-- A way to look at texts. -/
structure View where
  /-- Where an offset seems to be. -/
  offset : Nat → Nat
  /-- What a name, or another text, seems to be. -/
  name : Text → Text
  /-- How many more tokens seem to have been read. -/
  lead : Nat
  keeps : ∀ {t}, Reserved t → name t = t
  /-- Nothing else looks like a text that is kept. -/
  apart : ∀ {t}, Reserved (name t) → Reserved t

namespace View

variable (v : View)

/-- A text that is kept can be told from all others. -/
theorem name_eq_iff {t w : Text} (kept : Reserved w) : v.name t = w ↔ t = w := by
  constructor
  · intro same
    rw [← same] at kept ⊢
    exact (v.keeps (v.apart kept)).symm
  · rintro rfl
    exact v.keeps kept

theorem word_eq_iff {t : Text} {w : String} (listed : w ∈ reservedWords) :
    v.name t = Text.ofString w ↔ t = Text.ofString w :=
  v.name_eq_iff (.word listed)

theorem name_eq_nil_iff {t : Text} : v.name t = [] ↔ t = [] :=
  v.name_eq_iff (.short (Nat.zero_le _))

/-- Texts that are kept are found in a list under the same circumstances. -/
theorem contains_name {t : Text} {words : List Text} (kept : ∀ w ∈ words, Reserved w) :
    words.contains (v.name t) = words.contains t := by
  rw [Bool.eq_iff_iff, List.contains_iff_mem, List.contains_iff_mem]
  constructor
  · intro inside
    rwa [(v.name_eq_iff (kept _ inside)).mp rfl]
  · intro inside
    rwa [v.keeps (kept _ inside)]

theorem lookup_name {t : Text} {entries : List (Text × α)}
    (kept : ∀ entry ∈ entries, Reserved entry.1) :
    entries.lookup (v.name t) = entries.lookup t := by
  induction entries with
  | nil => rfl
  | cons entry entries ih =>
      obtain ⟨w, a⟩ := entry
      have same : (v.name t == w) = (t == w) := by
        rw [Bool.eq_iff_iff, beq_iff_eq, beq_iff_eq]
        exact v.name_eq_iff (kept (w, a) (List.mem_cons_self ..))
      rw [List.lookup_cons, List.lookup_cons, same,
        ih fun entry inside => kept entry (List.mem_cons_of_mem _ inside)]

end View

/-! ## §2. Tokens. -/

/-- What a lexeme looks like. -/
def Lexeme.view (v : View) : Lexeme → Lexeme
  | .word name => .word (v.name name)
  | .number raw => .number (v.name raw)
  | .string quote value => .string quote (v.name value)
  | .template value => .template (v.name value)
  | .templateHead value => .templateHead (v.name value)
  | .templateMiddle value => .templateMiddle (v.name value)
  | .templateTail value => .templateTail (v.name value)
  | .regex raw => .regex (v.name raw)
  | .punct p => .punct p
  | .stray c => .stray c
  | .endOfText => .endOfText

/-- What a token looks like. -/
def Token.view (v : View) (t : Token) : Token :=
  ⟨t.lexeme.view v, v.offset t.start, v.offset t.stop, t.newlineBefore⟩

section

variable (v : View)

@[simp] theorem Lexeme.view_value (l : Lexeme) : (l.view v).value = v.name l.value := by
  cases l with
  | punct p => exact (v.keeps (.punct p)).symm
  | stray c => exact (v.keeps (t := [c]) (.short (Nat.le_refl 1))).symm
  | endOfText => exact (v.keeps (t := []) (.short (Nat.zero_le 1))).symm
  | _ => rfl

@[simp] theorem Lexeme.view_kindName (l : Lexeme) : (l.view v).kindName = l.kindName := by
  cases l <;> rfl

namespace Token

variable (t : Token)

@[simp] theorem view_lexeme : (t.view v).lexeme = t.lexeme.view v := rfl

@[simp] theorem view_start : (t.view v).start = v.offset t.start := rfl

@[simp] theorem view_stop : (t.view v).stop = v.offset t.stop := rfl

@[simp] theorem view_newlineBefore : (t.view v).newlineBefore = t.newlineBefore := rfl

@[simp] theorem view_is (p : Punct) : (t.view v).is p = t.is p := by
  unfold is
  rw [view_lexeme]
  cases t.lexeme <;> rfl

@[simp] theorem view_isOneOf (ps : List Punct) : (t.view v).isOneOf ps = t.isOneOf ps := by
  unfold isOneOf
  rw [view_lexeme]
  cases t.lexeme <;> rfl

@[simp] theorem view_isWord : (t.view v).isWord = t.isWord := by
  unfold isWord
  rw [view_lexeme]
  cases t.lexeme <;> rfl

@[simp] theorem view_isString : (t.view v).isString = t.isString := by
  unfold isString
  rw [view_lexeme]
  cases t.lexeme <;> rfl

@[simp] theorem view_isNumber : (t.view v).isNumber = t.isNumber := by
  unfold isNumber
  rw [view_lexeme]
  cases t.lexeme <;> rfl

@[simp] theorem view_opensTemplate : (t.view v).opensTemplate = t.opensTemplate := by
  unfold opensTemplate
  rw [view_lexeme]
  cases t.lexeme <;> rfl

@[simp] theorem view_continuesTemplate : (t.view v).continuesTemplate = t.continuesTemplate := by
  unfold continuesTemplate
  rw [view_lexeme]
  cases t.lexeme <;> rfl

@[simp] theorem view_isEnd : (t.view v).isEnd = t.isEnd := by
  unfold isEnd
  rw [view_lexeme]
  cases t.lexeme <;> rfl

/-- A word that is kept is told from the others. -/
theorem view_isWordIn {words : List Text} (kept : ∀ w ∈ words, Reserved w) :
    (t.view v).isWordIn words = t.isWordIn words := by
  unfold isWordIn
  rw [view_lexeme]
  cases t.lexeme with
  | word name => exact v.contains_name kept
  | _ => rfl

theorem view_isTheWord {w : String} (listed : w ∈ reservedWords) :
    (t.view v).isTheWord (Text.ofString w) = t.isTheWord (Text.ofString w) := by
  unfold isTheWord
  rw [view_lexeme, Bool.eq_iff_iff, beq_iff_eq, beq_iff_eq]
  cases t.lexeme with
  | word name =>
      rw [Lexeme.word.injEq, ← v.word_eq_iff listed]
      exact Lexeme.word.injEq _ _ ▸ Iff.rfl
  | _ => exact ⟨nofun, nofun⟩

end Token

end

/-! ## §3. Trees. -/

/-- What a complaint looks like. -/
def Complaint.view (v : View) : Complaint → Complaint
  | .unexpectedToken value => .unexpectedToken (v.name value)
  | .expected p found => .expected p (v.name found)
  | c => c

/-- What a span looks like. -/
def Span.view (v : View) (s : Span) : Span :=
  ⟨v.offset s.start, v.offset s.stop⟩

/-- What a function looks like, its parts aside. -/
def FunctionInfo.view (v : View) (i : FunctionInfo) : FunctionInfo :=
  ⟨i.paramsSpan.map (Span.view v), i.isAsync⟩

/-- What a construct looks like, its parts aside. -/
def Form.relabel (v : View) : Form α → Form α
  | .functionDeclaration n ps b i => .functionDeclaration n ps b (i.view v)
  | .functionExpression n ps b i => .functionExpression n ps b (i.view v)
  | .arrowFunction ps b i => .arrowFunction ps b (i.view v)
  | .methodDeclaration k ps b a i => .methodDeclaration k ps b a (i.view v)
  | .jumpStatement k l => .jumpStatement k (l.map v.name)
  | .identifier n => .identifier (v.name n)
  | .stringLiteral x q => .stringLiteral (v.name x) q
  | .numericLiteral r => .numericLiteral (v.name r)
  | .regexLiteral r => .regexLiteral (v.name r)
  | .templateSpan e l => .templateSpan e (v.name l)
  | .templateLiteral h ss => .templateLiteral (v.name h) ss
  | .errorNode c => .errorNode (c.view v)
  | form => form

namespace Node

/-- What a tree looks like. -/
def view (v : View) (n : Tree) : Tree :=
  n.fold fun span form => .mk (span.view v) (form.relabel v)

variable (v : View)

@[simp] theorem view_mk (span : Span) (form : Form Tree) :
    view v (.mk span form) = .mk (span.view v) ((form.map (view v)).relabel v) :=
  fold_mk _ _ _

theorem mk_eq_view {span span' : Span} {form form' : Form Tree} (sameSpan : span' = span.view v)
    (sameForm : form' = (form.map (view v)).relabel v) :
    mk span' form' = view v (.mk span form) := by
  rw [sameSpan, sameForm, view_mk]

@[simp] theorem view_info (n : Tree) : (n.view v).info = n.info.view v := by
  cases n
  rw [view_mk]
  rfl

end Node

end StackLint
