/-
  StackLint.Proofs.Detection.Translated
  ─────────────────────────────────────
  **A COMMENT IN FRONT OF A TEXT MOVES WHAT IS DETECTED.**

  Behind one more line with a comment a text has the same tokens, further on; so it
  is parsed into the same tree, and the rules report the same.  Only the first token
  learns that a newline stands in front of it.
-/
import StackLint.Proofs.Detection.Combined
import StackLint.Proofs.Parse.Opening
import StackLint.Proofs.Rule.Moved
import StackLint.Proofs.Token.Exchange
import StackLint.Proofs.Token.Gap

namespace StackLint

/-! ## §1. Tokens. -/

/-- The text behind a line with a comment. -/
def Text.behindComment (comment t : Text) : Text :=
  "//" ++ comment ++ "\n" ++ t

/-- The width of a line with a comment, with its newline. -/
def Text.commentWidth (comment : Text) : Nat :=
  comment.length + 3

/-- The tokens with a newline in front of the first one. -/
def Token.allBehind : List Token → List Token
  | [] => []
  | t :: rest => t.behind true :: rest

namespace Scan

/-- What the scanner remembers of newlines shows in the next token alone. -/
theorem tokensFrom_behind (memory : Memory) (offset : Nat) (t : Text) :
    tokensFrom { memory with newline := true } 0 offset t
      = (tokensFrom memory 0 offset t).map Token.allBehind := by
  induction memory, offset, t using walk_induct with
  | nil memory offset =>
      rw [tokensFrom_nil, tokensFrom_nil]
      rfl
  | trivia memory offset c rest extra newline trivial ih =>
      rw [tokensFrom_trivia trivial, tokensFrom_trivia trivial, ← ih]
      rfl
  | failure memory offset c rest failure trivial read =>
      have read' : lexeme ({ memory with newline := true } : Memory).braces
          ({ memory with newline := true } : Memory).previous c rest = .error failure := read
      rw [tokensFrom_failure trivial read, tokensFrom_failure trivial read']
      rfl
  | lexeme memory offset c rest found trivial read _ =>
      have read' : lexeme ({ memory with newline := true } : Memory).braces
          ({ memory with newline := true } : Memory).previous c rest = .ok found := read
      rw [tokensFrom_lexeme trivial read, tokensFrom_lexeme trivial read']
      cases tokensFrom found.memory 0 (offset + 1 + min found.extra rest.length)
        (rest.drop found.extra) <;> rfl

end Scan

/-- A text that begins otherwise names no interpreter. -/
theorem hashbangWidth_eq_zero {t : Text} (noInterpreter : ¬ Text.ofString "#!" <+: t) :
    Scan.hashbangWidth t = 0 := by
  unfold Scan.hashbangWidth
  split
  · next c d rest =>
      rw [if_neg]
      rintro ⟨rfl, rfl⟩
      exact noInterpreter ⟨rest, rfl⟩
  · rfl

/-- **The tokens behind a comment** are those of the text, further on. -/
theorem tokenize_behindComment {comment t : Text} (oneLine : .scalar '\n' ∉ comment)
    (noInterpreter : ¬ Text.ofString "#!" <+: t) :
    tokenize (Text.behindComment comment t)
      = (tokenize t).map fun tokens =>
          Token.allBehind (tokens.map (Token.shift (Text.commentWidth comment))) := by
  have whole : Text.behindComment comment t
      = (.scalar '/' :: .scalar '/' :: (comment ++ [.scalar '\n'])) ++ t := by
    show .scalar '/' :: .scalar '/' :: (comment ++ [.scalar '\n'] ++ t) = _
    rfl
  have width : (CodePoint.scalar '/' :: .scalar '/' :: (comment ++ [.scalar '\n'])).length
      = 0 + Text.commentWidth comment := by
    simp only [List.length_cons, List.length_append, List.length_nil, Text.commentWidth]
    omega
  have noHashbang : Scan.hashbangWidth (Text.behindComment comment t) = 0 := by
    rw [whole]
    rfl
  have newline : (Scan.Memory.start.behind
      (.scalar '/' :: .scalar '/' :: (comment ++ [.scalar '\n'])))
      = { Scan.Memory.start with newline := true } := by
    unfold Scan.Memory.behind
    simp
  unfold tokenize
  rw [noHashbang, hashbangWidth_eq_zero noInterpreter, whole, Scan.passesOver_line oneLine, newline,
    width, Nat.zero_add, Scan.tokensFrom_behind, Scan.tokensFrom_shift]
  cases Scan.tokensFrom .start 0 0 t <;> rfl

/-! ## §2. Programs. -/

theorem Complaint.view_shift (k : Nat) (c : Complaint) : c.view (.shift k) = c := by
  cases c <;> rfl

theorem Token.view_shift (k : Nat) : Token.view (.shift k) = Token.shift k := by
  funext t
  obtain ⟨lexeme, start, stop, newline⟩ := t
  cases lexeme <;> rfl

/-- The tokens behind a line with a comment make a state that differs at its first
token alone. -/
theorem ParserState.alike_start (k : Nat) (t : Token) (tokens : List Token) (final : Token) :
    ((start (t :: tokens) final).view (.shift k)).Alike
      (start ((t.shift k).behind true :: tokens.map (Token.shift k)) (final.shift k)) where
  ahead := by
    refine ⟨t.shift k, tokens.map (Token.shift k), true, ?_, rfl⟩
    show (t :: tokens).map (Token.view _) = _
    rw [Token.view_shift, List.map_cons]
  same := by
    unfold start view
    simp only [List.length_cons, List.length_map, Token.view_shift]
    rfl

/-- What the parser makes of the same tokens further on. -/
structure Program.Moved (k : Nat) (p p' : Program) : Prop where
  tree : Node.MovedProgram k p.tree p'.tree
  complaints : p'.complaints = p.complaints.map fun complaint => (complaint.1 + k, complaint.2)

theorem Program.moved_ofRun (k : Nat) (span span' : Span)
    (r : EStateM.Result Halt ParserState (List Tree)) :
    Moved k (ofRun span r) (ofRun span' (Parser.viewResult (.shift k) (List.map (Node.shift k)) r))
    where
  tree := by
    cases r with
    | ok statements s => exact ⟨span, span', statements, rfl, rfl⟩
    | error halt s => exact ⟨span, span', [], rfl, rfl⟩
  complaints := by
    have seen (complaints : List (Nat × Complaint)) :
        complaints.map (fun c => ((View.shift k).offset c.1, c.2.view (.shift k)))
          = complaints.map fun c => (c.1 + k, c.2) := by
      simp only [Complaint.view_shift]
      rfl
    cases r with
    | ok statements s =>
        show ((s.complaints.map _).reverse) = s.complaints.reverse.map _
        rw [seen, List.map_reverse]
    | error halt s =>
        show (s.complaints.map _).reverse ++ [((s.view (.shift k)).current.start, _)]
          = (s.complaints.reverse ++ [_]).map _
        rw [seen, s.view_current, List.map_append, List.map_reverse]
        rfl

/-- Where no token is left, no statement is. -/
theorem Parser.statements_run_nil {final : Token} (isEnd : final.isEnd = true) (g : Grammar) :
    (statements g none []).run (.start [] final) = .ok [] (.start [] final) := by
  obtain ⟨lexeme, start, stop, newline⟩ := final
  obtain rfl : lexeme = .endOfText := beq_iff_eq.mp isEnd
  rfl

theorem parseTokens_nil {final : Token} (isEnd : final.isEnd = true) (length : Nat) :
    parseTokens length [] final = ⟨.mk ⟨0, length⟩ (.program []), []⟩ := by
  rw [parseTokens_eq_ofRun, Parser.statements_run_nil isEnd]
  rfl

/-- **The same tokens further on make the same program**, moved. -/
theorem parseTokens_moved (k length length' : Nat) (tokens : List Token) {final : Token}
    (isEnd : final.isEnd = true) :
    ∃ tokens' final',
      Token.allBehind ((tokens ++ [final]).map (Token.shift k)) = tokens' ++ [final']
        ∧ Program.Moved k (parseTokens length tokens final) (parseTokens length' tokens' final') := by
  cases tokens with
  | nil =>
      refine ⟨[], (final.shift k).behind true, rfl, ?_⟩
      have isEnd' : ((final.shift k).behind true).isEnd = true := isEnd
      rw [parseTokens_nil isEnd, parseTokens_nil isEnd']
      exact ⟨⟨_, _, [], rfl, rfl⟩, rfl⟩
  | cons t tokens =>
      refine ⟨(t.shift k).behind true :: tokens.map (Token.shift k), final.shift k, ?_, ?_⟩
      · rw [List.map_append]
        rfl
      have shallow : 0 + 2 < Parser.maxNesting := by decide
      have run := Parser.statements_commutes (Grammar.ofBudget_commutes (.shift k) parseBudget) none
        (List.forall_mem_nil _) (.start (t :: tokens) final)
      rw [parseTokens_eq_ofRun, parseTokens_eq_ofRun,
        Program.ofRun_eq_of_alike (ParserState.alike_start k t tokens final) shallow, run]
      exact Program.moved_ofRun k _ _ _

/-- **What is parsed behind a comment.** -/
theorem parse_behindComment {comment t : Text} {p : Program} (oneLine : .scalar '\n' ∉ comment)
    (noInterpreter : ¬ Text.ofString "#!" <+: t) (parsed : parse t = .ok p) :
    ∃ p', parse (Text.behindComment comment t) = .ok p'
      ∧ Program.Moved (Text.commentWidth comment) p p' := by
  obtain ⟨L, rfl, rfl⟩ := exists_layout_of_parse parsed
  have isEnd : L.final.isEnd = true := beq_iff_eq.mpr L.final_spec.1
  obtain ⟨tokens', final', split, moved⟩ :=
    parseTokens_moved (Text.commentWidth comment) L.text.length
      (Text.behindComment comment L.text).length L.tokens isEnd
  refine ⟨_, ?_, moved⟩
  unfold parse parseWithin
  rw [tokenize_behindComment oneLine noInterpreter, L.scanned]
  show (do
    let tokens ← (.ok (Token.allBehind _) : Except ScanFailure (List Token))
    _) = _
  rw [split]
  show Except.ok (parseTokens _ (tokens' ++ [final']).dropLast
    ((tokens' ++ [final']).getLast?.getD _)) = _
  rw [List.dropLast_concat, List.getLast?_concat]
  rfl

/-! ## §3. Sources. -/

namespace Text

theorem lineStartsFrom_eq_nil {t : Text} (oneLine : .scalar '\n' ∉ t) (offset : Nat) :
    t.lineStartsFrom offset = [] := by
  induction t generalizing offset with
  | nil => rfl
  | cons c rest ih =>
      rw [List.mem_cons, not_or] at oneLine
      rw [lineStartsFrom, if_neg (Ne.symm oneLine.1)]
      exact ih oneLine.2 (offset + 1)

theorem lineStartsFrom_add (t : Text) (offset k : Nat) :
    t.lineStartsFrom (offset + k) = (t.lineStartsFrom offset).map (· + k) := by
  induction t generalizing offset with
  | nil => rfl
  | cons c rest ih =>
      rw [lineStartsFrom, lineStartsFrom, Nat.add_right_comm, ih]
      split <;> rfl

/-- Behind a comment every line begins further on, and there is one more. -/
theorem lineStarts_behindComment {comment : Text} (oneLine : .scalar '\n' ∉ comment) (t : Text) :
    (behindComment comment t).lineStarts
      = 0 :: t.lineStarts.map (· + commentWidth comment) := by
  have whole : behindComment comment t
      = (.scalar '/' :: .scalar '/' :: comment) ++ (.scalar '\n' :: t) := by
    show .scalar '/' :: .scalar '/' :: (comment ++ [.scalar '\n'] ++ t) = _
    rw [List.append_assoc]
    rfl
  have oneLine' : .scalar '\n' ∉ (CodePoint.scalar '/' :: .scalar '/' :: comment) := by
    simpa using oneLine
  unfold lineStarts
  rw [whole, lineStartsFrom_append, lineStartsFrom_eq_nil oneLine', List.nil_append,
    lineStartsFrom, if_pos rfl, List.map_cons]
  have width : 0 + (CodePoint.scalar '/' :: .scalar '/' :: comment).length + 1
      = 0 + commentWidth comment := by
    simp only [List.length_cons, commentWidth]
    omega
  rw [width, lineStartsFrom_add]

end Text

/-- **A comment is a line in front of a source.** -/
theorem Source.ofText_behindComment {path : Path} {comment t : Text} {s : Source}
    (oneLine : .scalar '\n' ∉ comment) (noInterpreter : ¬ Text.ofString "#!" <+: t)
    (read : ofText path t = .ok s) :
    ∃ s', ofText path (Text.behindComment comment t) = .ok s'
      ∧ s.Below (Text.commentWidth comment) s'
      ∧ s'.complaints
          = s.complaints.map fun complaint =>
              (complaint.1 + Text.commentWidth comment, complaint.2) := by
  unfold ofText at read
  obtain ⟨p, parsed, isSource⟩ := bind_eq_ok.mp read
  cases isSource
  obtain ⟨p', parsed', moved⟩ := parse_behindComment oneLine noInterpreter parsed
  refine ⟨_, bind_eq_ok.mpr ⟨p', parsed', rfl⟩, ⟨rfl, ?_, ?_, ⟨_, rfl⟩, moved.tree⟩,
    moved.complaints⟩
  · refine ⟨.scalar '/' :: .scalar '/' :: (comment ++ [.scalar '\n']), ?_, rfl⟩
    simp [Text.commentWidth]
  · exact Text.lineStarts_behindComment oneLine t

/-! ## §4. Detections. -/

/-- What a rule adds is moved as well, whatever the settings are. -/
theorem Rule.contribution_moved {k : Nat} {settings : Settings} {s s' : Source} {r : Rule}
    {found : List Violation} (isOk : r.detect s = .ok found)
    (moved : ReportsAllMoved k (r.detect s) (r.detect s')) :
    List.Forall₂ (Violation.Moved k) (r.contribution settings s) (r.contribution settings s') := by
  obtain ⟨found', isOk', same⟩ := moved found isOk
  have heard : List.Forall₂ (Violation.Moved k)
      (found.filter fun v => v.code ∉ settings.disabledCodes)
      (found'.filter fun v => v.code ∉ settings.disabledCodes) := by
    refine List.rel_filter (fun v v' isMoved => ?_) same
    show decide (v.code ∉ _) = true ↔ decide (v'.code ∉ _) = true
    rw [isMoved.code]
  unfold contribution
  rw [isOk, isOk', List.forall₂_map_left_iff, List.forall₂_map_right_iff]
  refine heard.imp fun v v' isMoved => { isMoved with severity := ?_ }
  simp only [judged, isMoved.severity]

/-- **The detection, one line further down.** -/
structure Detection.Moved (k : Nat) (d d' : Detection) : Prop where
  violations : List.Forall₂ (Violation.Moved k) d.violations d'.violations
  executed : d'.rulesExecuted = d.rulesExecuted
  skipped : d'.rulesSkipped = d.rulesSkipped
  failures : d'.failures = d.failures

/-- Rules that run on both sources without failing make detections alike. -/
theorem Detection.Combines.moved {k : Nat} {settings : Settings} {rules : List Rule}
    {s s' : Source} {d d' : Detection} (sum : d.Combines settings rules s)
    (sum' : d'.Combines settings rules s')
    (each : ∀ r ∈ rules, ∃ found, r.detect s = .ok found)
    (moved : ∀ r ∈ rules, ReportsAllMoved k (r.detect s) (r.detect s')) : d.Moved k d' where
  violations := by
    rw [sum.violations, sum'.violations]
    refine Node.forall₂_flatMap fun r isEnabled => ?_
    have isRule := (List.mem_filter.mp isEnabled).1
    obtain ⟨found, isOk⟩ := each r isRule
    exact Rule.contribution_moved isOk (moved r isRule)
  executed := by
    rw [sum.executed, sum'.executed]
  skipped := by
    have total := sum.total
    have total' := sum'.total
    rw [sum.executed] at total
    rw [sum'.executed] at total'
    omega
  failures := by
    rw [sum.failures, sum'.failures]
    refine List.filterMap_congr fun r isEnabled => ?_
    have isRule := (List.mem_filter.mp isEnabled).1
    obtain ⟨found, isOk⟩ := each r isRule
    obtain ⟨found', isOk', _⟩ := moved r isRule found isOk
    unfold Rule.failureOn
    rw [isOk, isOk']

/-- **A comment in front of a text moves what is detected.**  On every text that names no
interpreter, and under all settings: where the built-in rules run on the text they run
on it behind a line with a comment, find the same one line further down with fixes that
are moved by the width of the comment, and the parser complains about the same. -/
theorem Detector.detect_behindComment (settings : Settings) (path : Path) (comment t : Text)
    (s : Source) (detection : Detection) (oneLine : .scalar '\n' ∉ comment)
    (noInterpreter : ¬ Text.ofString "#!" <+: t) (read : Source.ofText path t = .ok s)
    (found : (builtIn settings).detect s = .ok detection) :
    ∃ s' detection', Source.ofText path (Text.behindComment comment t) = .ok s'
      ∧ (builtIn settings).detect s' = .ok detection'
      ∧ detection.Moved (Text.commentWidth comment) detection'
      ∧ s'.complaints = s.complaints.map fun complaint =>
          (complaint.1 + Text.commentWidth comment, complaint.2) := by
  obtain ⟨s', read', below, complaints⟩ := Source.ofText_behindComment oneLine noInterpreter read
  obtain ⟨L, on, _⟩ := Source.exists_layout read
  have noFailure (r : Rule) (isBuiltIn : r ∈ Rule.builtIn) : r.failureOn s' = none := by
    obtain ⟨_, isOk, _⟩ := Rule.detect_liesIn isBuiltIn read'
    unfold Rule.failureOn
    rw [isOk]
  obtain ⟨detection', found', sum'⟩ := exists_combines (d := builtIn settings) noFailure
  refine ⟨s', detection', read', found', ?_, complaints⟩
  refine (combines_of_detect found).moved sum' (fun r isBuiltIn => ?_) fun r isBuiltIn => ?_
  · obtain ⟨violations, isOk, _⟩ := Rule.detect_liesIn isBuiltIn read
    exact ⟨violations, isOk⟩
  · exact Rule.detect_moved isBuiltIn below on

/-- A link to a resource that is declared on the line below. -/
def earlyLink : Text :=
  Text.ofString "const a = new sst.aws.Function(\"A\", \x7b link: [b] \x7d);\n"
    ++ Text.ofString "const b = new sst.aws.Bucket(\"B\", \x7b\x7d);"

/-- What is wrong with it. -/
def earlyLinked : Text :=
  Text.ofString "Using resource \"b\" before it is declared (line 2)"

theorem Detector.detect_behindComment_earlyLink :
    (CodePoint.scalar '\n' ∉ Text.ofString " links" ∧ ¬ Text.ofString "#!" <+: earlyLink)
      ∧ ∃ s detection, Source.ofText ⟨.here, []⟩ earlyLink = .ok s
          ∧ (builtIn .standard).detect s = .ok detection
          ∧ detection.violations.map (fun v => (v.message, v.line, v.column))
              = [(earlyLinked, 1, 7)]
          ∧ ∃ s' detection',
              Source.ofText ⟨.here, []⟩ (Text.behindComment " links" earlyLink) = .ok s'
                ∧ (builtIn .standard).detect s' = .ok detection'
                ∧ detection.Moved (Text.commentWidth " links") detection'
                ∧ s'.complaints = s.complaints.map fun complaint =>
                    (complaint.1 + Text.commentWidth " links", complaint.2) := by
  have oneLine : CodePoint.scalar '\n' ∉ Text.ofString " links" := by decide
  have noInterpreter : ¬ Text.ofString "#!" <+: earlyLink := by decide
  obtain ⟨s, read, evaluated⟩ :
      ∃ s, Source.ofText ⟨.here, []⟩ earlyLink = .ok s
        ∧ ((builtIn .standard).detect s).toOption.any (fun detection =>
            detection.violations.map (fun v => (v.message, v.line, v.column))
              == [(earlyLinked, 1, 7)]) = true :=
    exists_ok_of_any (by decide +kernel)
  obtain ⟨detection, found, evaluated⟩ := exists_ok_of_any evaluated
  exact ⟨⟨oneLine, noInterpreter⟩, s, detection, read, found, beq_iff_eq.mp evaluated,
    detect_behindComment .standard _ " links" earlyLink s detection oneLine noInterpreter read
      found⟩

end StackLint
