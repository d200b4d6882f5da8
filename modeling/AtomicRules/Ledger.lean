import AtomicRules.Journal
import AtomicRules.Sheet.Live
import AtomicRules.Text.Quoted

/-!
# The ledger

All rules in the order in which they were made. Where there is a live sheet, each rule is offered
to it once, at the end as the sheet counts. A refusal changes nothing in the ledger. It only shows
in the journal, and there only with `debug`.
-/

namespace AtomicRules

/-- The rules so far, the live sheet that gets a copy of them, and all reports. With `debug`, what
the sheet answers is reported as well. -/
structure Ledger (σ : Type) where
  rules : List String := []
  sheet? : Option σ := none
  debug : Bool := false
  journal : List Journal.Record := []

namespace Ledger

variable {σ : Type}

/-- The record of a rule that a sheet took or refused. -/
def outcome (rule : String) : Except Refusal Unit → Journal.Record
  | .ok () => ⟨.debug, "atomcss::sink", "rule inserted: " ++ rule⟩
  | .error refusal =>
      ⟨.warn, "atomcss::sink", "rule not supported: " ++ rule ++ ": " ++ refusal.message⟩

/-- Reports something, with or without `debug`. -/
def report (ledger : Ledger σ) (news : Journal.Record) : Ledger σ :=
  { ledger with journal := ledger.journal ++ [news] }

/-- The number of rules. -/
def size (ledger : Ledger σ) : Nat :=
  ledger.rules.length

/-- Enters a rule and offers it to the live sheet. -/
def record [LiveSheet σ] (ledger : Ledger σ) (rule : String) : Ledger σ :=
  match ledger.sheet? with
  | none => { ledger with rules := ledger.rules ++ [rule] }
  | some sheet =>
      let (answer, sheet) := LiveSheet.insertRule rule (LiveSheet.ruleCount sheet) sheet
      let news := if ledger.debug then [outcome rule answer] else []
      { ledger with
        rules := ledger.rules ++ [rule]
        sheet? := some sheet
        journal := ledger.journal ++ news }

/-- The ledger on one line: its rules in quotes, whether it has a sheet, and `debug`. -/
def describe (ledger : Ledger σ) : String :=
  "Sink \x7b rules: [" ++ String.intercalate ", " (ledger.rules.map Text.quoted) ++
    "], has_sheet: " ++ toString ledger.sheet?.isSome ++
    ", debug: " ++ toString ledger.debug ++ " \x7d"

/-- A report is no rule. -/
@[simp] theorem rules_report (ledger : Ledger σ) (news : Journal.Record) :
    (ledger.report news).rules = ledger.rules := rfl

@[simp] theorem sheet?_report (ledger : Ledger σ) (news : Journal.Record) :
    (ledger.report news).sheet? = ledger.sheet? := rfl

@[simp] theorem debug_report (ledger : Ledger σ) (news : Journal.Record) :
    (ledger.report news).debug = ledger.debug := rfl

/-- A recorded rule comes last, whatever the sheet does. -/
@[simp] theorem rules_record [LiveSheet σ] (ledger : Ledger σ) (rule : String) :
    (ledger.record rule).rules = ledger.rules ++ [rule] := by
  unfold record
  split <;> rfl

/-- A ledger keeps its sheet, or goes on without one. -/
@[simp] theorem isSome_sheet?_record [LiveSheet σ] (ledger : Ledger σ) (rule : String) :
    (ledger.record rule).sheet?.isSome = ledger.sheet?.isSome := by
  unfold record
  split
  · rfl
  · next h => rw [h]; rfl

/-- Whether the answers of the sheet are reported is settled at the start. -/
@[simp] theorem debug_record [LiveSheet σ] (ledger : Ledger σ) (rule : String) :
    (ledger.record rule).debug = ledger.debug := by
  unfold record
  split <;> rfl

/-- What a sheet answers is no trace. -/
theorem severity_outcome_ne (rule : String) (answer : Except Refusal Unit) :
    (outcome rule answer).severity ≠ .trace := by
  cases answer <;> simp [outcome]

/-- Entering a rule traces nothing. -/
@[simp] theorem traces_record [LiveSheet σ] (ledger : Ledger σ) (rule : String) :
    Journal.traces (ledger.record rule).journal = Journal.traces ledger.journal := by
  unfold record
  split
  · rfl
  · show Journal.traces (ledger.journal ++ if ledger.debug then [outcome rule _] else []) = _
    rw [Journal.traces_append]
    cases ledger.debug <;> simp [Journal.traces, severity_outcome_ne]

end Ledger

end AtomicRules
