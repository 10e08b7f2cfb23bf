/-
  StackLint.Proofs.Detection.Combined
  ───────────────────────────────────
  **A DETECTION IS THE SUM OF ITS RULES.**

  A detector reports what its enabled rules find, one rule after the other, and a
  rule that fails takes nothing away from the others.  The built-in rules share no
  codes, so what each of them finds can be told from what the others find.
-/
import StackLint.Proofs.Detection.Sound
import StackLint.Proofs.Rule.Found

namespace StackLint

/-! ## §1. One rule. -/

/-- Looking up a key finds the first pair that has it. -/
theorem lookupKey_eq_find? {α : Type} (key : Text) (pairs : List (Text × α)) :
    lookupKey key pairs = (pairs.find? fun pair => pair.1 = key).map Prod.snd := by
  induction pairs with
  | nil => rfl
  | cons pair pairs ih =>
      rw [lookupKey, List.find?_cons]
      by_cases same : pair.1 = key
      · rw [if_pos same, decide_eq_true same]
        rfl
      · rw [if_neg same, decide_eq_false same, ih]

/-- What the settings say of the rule with this id, the first time they name it. -/
def Settings.ofRule? (settings : Settings) (id : Text) : Option RuleSettings :=
  (settings.rules.find? fun own => own.1 = id).map Prod.snd

namespace Rule

/-- **Whether a rule is switched on:** so are all rules, and the rule is by its own settings
or, where it has none, by default. -/
def isOn (settings : Settings) (r : Rule) : Bool :=
  settings.enabled && match settings.ofRule? r.id with
    | some own => own.enabled
    | none => r.enabledByDefault

/-- The violation with the severity that the rule's own settings say, if they say one. -/
def judged (settings : Settings) (r : Rule) (v : Violation) : Violation :=
  { v with
    severity := match settings.ofRule? r.id with
      | some ⟨_, some severity⟩ => severity
      | _ => v.severity }

/-- **What a rule adds to a detection:** what it finds in the source, without the
codes that are disabled, with the severity that is set for the rule.  A rule that
fails adds nothing. -/
def contribution (settings : Settings) (s : Source) (r : Rule) : List Violation :=
  match r.detect s with
  | .ok found => (found.filter fun v => v.code ∉ settings.disabledCodes).map (r.judged settings)
  | .error _ => []

theorem isRuleEnabled_eq (settings : Settings) (r : Rule) :
    settings.isRuleEnabled r.id r.enabledByDefault = r.isOn settings := by
  rw [Settings.isRuleEnabled, lookupKey_eq_find?, isOn, Settings.ofRule?]
  cases settings.rules.find? fun own => own.1 = r.id <;> rfl

theorem judged_eq (settings : Settings) (r : Rule) (v : Violation) :
    r.judged settings v
      = match settings.severityOverride r.id with
        | none => v
        | some severity => { v with severity := severity } := by
  rw [Settings.severityOverride, lookupKey_eq_find?, judged, Settings.ofRule?]
  cases settings.rules.find? fun own => own.1 = r.id with
  | none => rfl
  | some found =>
      obtain ⟨id, enabled, severity⟩ := found
      cases severity <;> rfl

/-- Why the rule fails on the source, if it does. -/
def failureOn (s : Source) (r : Rule) : Option RuleFailure :=
  match r.detect s with
  | .ok _ => none
  | .error failure => some failure

theorem failureOn_eq_some_iff {s : Source} {r : Rule} {failure : RuleFailure} :
    r.failureOn s = some failure ↔ r.detect s = .error failure := by
  unfold failureOn
  cases r.detect s <;> simp

end Rule

namespace Detector

variable {d : Detector} {s : Source} {r : Rule}

theorem runs_eq : d.runs r = r.isOn d.settings :=
  Rule.isRuleEnabled_eq d.settings r

theorem isSkipped_run : (d.run s r).isSkipped = !r.isOn d.settings := by
  rw [← runs_eq]
  unfold run RuleRun.isSkipped
  by_cases enabled : d.runs r = true
  · simp only [enabled, if_true, Bool.not_true]
    cases r.detect s <;> rfl
  · simp [enabled]

theorem failure?_run :
    (d.run s r).failure? = if r.isOn d.settings then r.failureOn s else none := by
  rw [← runs_eq]
  unfold run RuleRun.failure? Rule.failureOn
  by_cases enabled : d.runs r = true
  · simp only [enabled, if_true]
    cases r.detect s <;> rfl
  · simp [enabled]

theorem reported_run :
    (d.run s r).reported d.settings
      = if r.isOn d.settings then r.contribution d.settings s else [] := by
  rw [← runs_eq]
  unfold run RuleRun.reported Rule.contribution
  by_cases enabled : d.runs r = true
  · simp only [enabled, if_true]
    cases r.detect s with
    | error failure => rfl
    | ok found =>
        have heard (v : Violation) :
            d.settings.isCodeEnabled v.code = decide (v.code ∉ d.settings.disabledCodes) := by
          simp [Settings.isCodeEnabled]
        simp only [heard, funext (Rule.judged_eq d.settings r)]
        cases d.settings.severityOverride r.id with
        | none => exact (List.map_id' _).symm
        | some severity => rfl
  · simp [enabled]

end Detector

/-! ## §2. All rules. -/

/-- **What comes of rules that run on a source under the settings.** -/
structure Detection.Combines (settings : Settings) (rules : List Rule) (s : Source)
    (d : Detection) : Prop where
  violations : d.violations
    = (rules.filter (Rule.isOn settings)).flatMap (Rule.contribution settings s)
  failures : d.failures = (rules.filter (Rule.isOn settings)).filterMap fun r =>
    (r.failureOn s).map fun failure => (r.id, failure)
  executed : d.rulesExecuted = (rules.filter (Rule.isOn settings)).length
  total : d.rulesExecuted + d.rulesSkipped = rules.length

/-- What rules that do not run would add is not added. -/
theorem flatMap_enabled {α : Type} (enabled : Rule → Bool) (f : Rule → List α)
    (rules : List Rule) :
    (rules.flatMap fun r => if enabled r then f r else []) = (rules.filter enabled).flatMap f := by
  induction rules with
  | nil => rfl
  | cons r rules ih =>
      rw [List.flatMap_cons, ih]
      by_cases runs : enabled r = true
      · rw [if_pos runs, List.filter_cons_of_pos runs, List.flatMap_cons]
      · rw [if_neg runs, List.filter_cons_of_neg runs, List.nil_append]

/-- If only what comes of one member passes a test, and all of it does, then that is
what passes of the whole. -/
theorem filter_flatMap_eq {α β : Type} {as : List α} {a : α} {f : α → List β} {p : β → Bool}
    (nodup : as.Nodup) (isMember : a ∈ as) (own : ∀ b ∈ f a, p b = true)
    (others : ∀ a' ∈ as, a' ≠ a → ∀ b ∈ f a', p b = false) :
    (as.flatMap f).filter p = f a := by
  obtain ⟨before, after, rfl⟩ := List.append_of_mem isMember
  have apart := (List.nodup_cons.mp (List.nodup_middle.mp nodup)).1
  have none (part : List α) (inside : part ⊆ before ++ after) :
      (part.flatMap f).filter p = [] := by
    refine List.filter_eq_nil_iff.mpr fun b isPart => ?_
    obtain ⟨a', isMember', inside'⟩ := List.mem_flatMap.mp isPart
    have other : a' ≠ a := by
      rintro rfl
      exact apart (inside isMember')
    have isMember' : a' ∈ before ++ a :: after :=
      (List.perm_middle.mem_iff).mpr (List.mem_cons_of_mem _ (inside isMember'))
    rw [others a' isMember' other b inside']
    exact Bool.false_ne_true
  rw [List.flatMap_append, List.flatMap_cons, List.filter_append, List.filter_append,
    List.filter_eq_self.mpr own, none before (List.subset_append_left _ _),
    none after (List.subset_append_right _ _), List.nil_append, List.append_nil]

namespace Detector

variable {d : Detector} {s : Source}

/-- **The result of a detector** combines its rules. -/
theorem result_combines : (d.result (d.rules.map (d.run s))).Combines d.settings d.rules s where
  violations := by
    show (d.rules.map (d.run s)).flatMap (RuleRun.reported d.settings) = _
    rw [List.flatMap_map]
    simp only [reported_run]
    exact flatMap_enabled _ _ _
  failures := by
    show (d.rules.map (d.run s)).filterMap _ = _
    rw [List.filterMap_map, List.filterMap_filter]
    congr 1
    funext r
    rw [Function.comp_apply, failure?_run]
    by_cases runs : r.isOn d.settings = true
    · simp [runs, run]
    · simp [runs]
  executed := by
    show (d.rules.map (d.run s)).countP _ = _
    rw [List.countP_map, ← List.countP_eq_length_filter]
    congr 1
    funext r
    rw [Function.comp_apply, isSkipped_run, Bool.not_not]
  total := by
    have split := List.length_eq_countP_add_countP RuleRun.isSkipped (l := d.rules.map (d.run s))
    simp only [Bool.not_eq_true, Bool.decide_eq_false, List.length_map] at split
    rw [split, Nat.add_comm]
    rfl

/-- What a detection returns combines the rules, also when no rule may fail. -/
theorem combines_of_detect {detection : Detection} (h : d.detect s = .ok detection) :
    detection.Combines d.settings d.rules s := by
  unfold detect at h
  simp only at h
  split at h
  · cases h
  · cases h
    exact result_combines

/-- Where no rule may fail, the detection fails exactly when an enabled rule does. -/
theorem detect_eq_error_iff (off : d.settings.continueOnError = false) :
    (∃ failure, d.detect s = .error failure)
      ↔ ∃ r ∈ d.rules, r.isOn d.settings = true
          ∧ ∃ failure, r.detect s = .error failure := by
  have fatal : d.fatal? (d.rules.map (d.run s))
      = (d.rules.map (d.run s)).findSome? RuleRun.failure? := by
    unfold fatal?
    rw [off, if_neg Bool.false_ne_true]
  have failed : (∃ failure, d.detect s = .error failure)
      ↔ (d.fatal? (d.rules.map (d.run s))).isSome = true := by
    unfold detect
    simp only
    cases d.fatal? (d.rules.map (d.run s)) <;> simp
  rw [failed, fatal, List.findSome?_isSome_iff]
  constructor
  · rintro ⟨run, isRun, hasFailed⟩
    obtain ⟨r, isRule, rfl⟩ := List.mem_map.mp isRun
    obtain ⟨failure, isFailure⟩ := Option.isSome_iff_exists.mp hasFailed
    rw [failure?_run] at isFailure
    split at isFailure
    · next enabled => exact ⟨r, isRule, enabled, failure, Rule.failureOn_eq_some_iff.mp isFailure⟩
    · cases isFailure
  · rintro ⟨r, isRule, enabled, failure, fails⟩
    refine ⟨d.run s r, List.mem_map_of_mem isRule, ?_⟩
    rw [failure?_run, if_pos enabled, Rule.failureOn_eq_some_iff.mpr fails]
    rfl

/-- Rules with distinct ids are all registered, in their order. -/
theorem foldlM_register (rules : List Rule) (d : Detector)
    (distinct : ((d.rules ++ rules).map Rule.id).Nodup) :
    rules.foldlM register d = .ok { d with rules := d.rules ++ rules } := by
  induction rules generalizing d with
  | nil => rw [List.append_nil]; rfl
  | cons r rules ih =>
      have new : d.find? r.id = none := by
        refine List.find?_eq_none.mpr fun r' isRule => ?_
        rw [decide_eq_true_eq]
        intro same
        rw [List.map_append, List.map_cons] at distinct
        exact List.disjoint_of_nodup_append distinct (List.mem_map_of_mem isRule)
          (same ▸ List.mem_cons_self ..)
      have registered : d.register r = .ok { d with rules := d.rules ++ [r] } := by
        unfold register
        rw [new]
        rfl
      rw [List.foldlM_cons, registered]
      have later := ih { d with rules := d.rules ++ [r] } (by rwa [List.append_assoc])
      rw [List.append_assoc] at later
      exact later

end Detector

/-! ## §3. The built-in rules. -/

namespace Rule

/-- The built-in rules have distinct ids. -/
theorem ids_nodup : (builtIn.map id).Nodup := by
  decide

/-- A rule adds violations with its own codes. -/
theorem code_mem_of_contribution {settings : Settings} {s : Source} {r : Rule}
    (isBuiltIn : r ∈ builtIn) {v : Violation} (inside : v ∈ r.contribution settings s) :
    v.code ∈ r.codes := by
  unfold contribution at inside
  cases found : r.detect s with
  | error failure =>
      rw [found] at inside
      cases inside
  | ok violations =>
      rw [found] at inside
      obtain ⟨v', heard, rfl⟩ := List.mem_map.mp inside
      have own := code_mem_codes isBuiltIn found (List.mem_filter.mp heard).1
      exact own

/-- **What a rule adds is what the sum of the rules has with its codes.** -/
theorem filter_contributions {settings : Settings} {s : Source} {r : Rule}
    (isBuiltIn : r ∈ builtIn) :
    ((builtIn.filter (isOn settings)).flatMap (contribution settings s)).filter
        (fun v => v.code ∈ r.codes)
      = ([r].filter (isOn settings)).flatMap (contribution settings s) := by
  rw [← flatMap_enabled, ← flatMap_enabled, List.flatMap_singleton]
  refine filter_flatMap_eq (List.Nodup.of_map id ids_nodup) isBuiltIn ?_ ?_
  · intro v inside
    split at inside
    · exact decide_eq_true (code_mem_of_contribution isBuiltIn inside)
    · cases inside
  · -- No other rule adds a violation with one of these codes.
    intro r' isBuiltIn' other v inside
    split at inside
    · refine decide_eq_false fun code => other ?_
      exact eq_of_mem_codes isBuiltIn' isBuiltIn (code_mem_of_contribution isBuiltIn' inside) code
    · cases inside

end Rule

namespace Detector

variable {d : Detector} {s : Source}

/-- Where no rule fails, the rules are combined under all settings. -/
theorem exists_combines (noFailure : ∀ r ∈ d.rules, r.failureOn s = none) :
    ∃ detection, d.detect s = .ok detection ∧ detection.Combines d.settings d.rules s := by
  refine ⟨_, (detect_of_noFailure fun r isRule => ?_).1, result_combines⟩
  rw [failure?_run, noFailure r isRule, ite_self]

/-- **A detection is the sum of its rules.**  First, for all rules with distinct ids:
what a detection returns combines them; it always returns when rules may fail; and
when they must not, it fails exactly when an enabled rule does.  Second, for the
built-in rules and every parsed text: what a rule finds alone is what the combined
run finds with the codes of the rule. -/
theorem detect_combines :
    (∀ (settings : Settings) (rules : List Rule) (s : Source), (rules.map Rule.id).Nodup →
      ∃ d, ofRules settings rules = .ok d
        ∧ (∀ detection, d.detect s = .ok detection → detection.Combines settings rules s)
        ∧ (settings.continueOnError = true → ∃ detection, d.detect s = .ok detection)
        ∧ (settings.continueOnError = false →
            ((∃ failure, d.detect s = .error failure)
              ↔ ∃ r ∈ rules, r.isOn settings = true
                  ∧ ∃ failure, r.detect s = .error failure)))
      ∧ ∀ (settings : Settings) (path : Path) (text : Text) (source : Source),
          Source.ofText path text = .ok source →
          ∃ detection, (builtIn settings).detect source = .ok detection
            ∧ ∀ r ∈ Rule.builtIn, ∃ d alone, ofRules settings [r] = .ok d
                ∧ d.detect source = .ok alone
                ∧ alone.violations = detection.violations.filter fun v => v.code ∈ r.codes := by
  have registered (settings : Settings) (rules : List Rule) (distinct : (rules.map Rule.id).Nodup) :
      ofRules settings rules = .ok ⟨settings, rules⟩ :=
    foldlM_register rules (empty settings) distinct
  constructor
  · intro settings rules s distinct
    refine ⟨_, registered settings rules distinct, ?_, ?_, ?_⟩
    · intro detection isOk
      exact combines_of_detect isOk
    · intro on
      exact ⟨_, detect_of_continueOnError on s⟩
    · intro off
      exact detect_eq_error_iff off
  · intro settings path text source read
    have noFailure (r : Rule) (isBuiltIn : r ∈ Rule.builtIn) : r.failureOn source = none := by
      obtain ⟨found, isOk, _⟩ := Rule.detect_liesIn isBuiltIn read
      unfold Rule.failureOn
      rw [isOk]
    obtain ⟨detection, isOk, combined⟩ := exists_combines (d := builtIn settings) noFailure
    refine ⟨detection, isOk, fun r isBuiltIn => ?_⟩
    obtain ⟨alone, isAlone, sum⟩ := exists_combines (d := ⟨settings, [r]⟩)
      (List.forall_mem_singleton.mpr (noFailure r isBuiltIn))
    refine ⟨_, alone, registered settings [r] (List.nodup_singleton _), isAlone, ?_⟩
    rw [sum.violations, combined.violations]
    exact (Rule.filter_contributions isBuiltIn).symm

/-- A rule that fails on every source. -/
def failing : Rule where
  id := "failing"
  name := "Failing"
  category := .configFile
  codes := []
  description := ""
  enabledByDefault := true
  className := "Failing"
  detect := fun _ => .error (.gaveUp "")

/-- Settings that turn the errors of one rule into warnings, switch another rule off and mute
a code. -/
def choosy : Settings :=
  { Settings.standard with
    rules := [("env-variable", ⟨true, some .warning⟩), ("pulumi-output", ⟨false, none⟩)]
    disabledCodes := ["SST-VAL-042"] }

/-- A text in which the three rules of `choosy` all find something. -/
def threefold : Text :=
  Text.ofString "input.stage; x = bucket.arn + '1'; new sst.aws.Function('F', "
    ++ Text.ofString "\x7b environment: \x7b LAMBDA_A: '1', _b: '2' \x7d \x7d)"

/-- Under settings of all three kinds, with a rule that fails among the others. -/
theorem detect_combines_choosy :
    let rules := [failing, Rule.stageVariable, Rule.envVariable, Rule.pulumiOutput]
    (rules.map Rule.id).Nodup
      ∧ ∃ source d detection, Source.ofText ⟨.here, []⟩ threefold = .ok source
          ∧ ofRules choosy rules = .ok d ∧ d.detect source = .ok detection
          ∧ detection.violations.map (fun v => (v.code, v.severity))
            = [(Text.ofString "SST-VAL-001", .error), (Text.ofString "SST-VAL-043", .warning)]
          ∧ detection.failures.map Prod.fst = [failing.id]
          ∧ detection.rulesExecuted = 3 ∧ detection.rulesSkipped = 1
          ∧ ∃ combined, (builtIn choosy).detect source = .ok combined
              ∧ ∀ r ∈ Rule.builtIn, ∃ d alone, ofRules choosy [r] = .ok d
                  ∧ d.detect source = .ok alone
                  ∧ alone.violations = combined.violations.filter fun v => v.code ∈ r.codes := by
  intro rules
  have distinct : (rules.map Rule.id).Nodup := by decide
  obtain ⟨source, read, evaluated⟩ :
      ∃ source, Source.ofText ⟨.here, []⟩ threefold = .ok source
        ∧ ((((rules.filter (Rule.isOn choosy)).flatMap (Rule.contribution choosy source)).map
              (fun v => (v.code, v.severity))
              == [(Text.ofString "SST-VAL-001", .error), (Text.ofString "SST-VAL-043", .warning)])
            && ((rules.filter (Rule.isOn choosy)).filterMap fun r =>
                (r.failureOn source).map fun _ => r.id) == [failing.id]) = true :=
    exists_ok_of_any (by decide +kernel)
  rw [Bool.and_eq_true, beq_iff_eq, beq_iff_eq] at evaluated
  obtain ⟨d, isDetector, combines, returns, _⟩ := detect_combines.1 choosy rules source distinct
  obtain ⟨detection, isOk⟩ := returns rfl
  have sum := combines detection isOk
  have executed : detection.rulesExecuted = 3 := sum.executed
  have total : detection.rulesExecuted + detection.rulesSkipped = 4 := sum.total
  refine ⟨distinct, source, d, detection, read, isDetector, isOk, ?_, ?_, executed, ?_,
    detect_combines.2 choosy _ _ source read⟩
  · rw [sum.violations]
    exact evaluated.1
  · rw [sum.failures, List.map_filterMap, ← evaluated.2]
    refine List.filterMap_congr fun r _ => ?_
    rw [Option.map_map]
    rfl
  · omega

end Detector

end StackLint
