import AtomicRules.Sheet.Live

/-!
# Transcripts

A live sheet that writes down every rule it is offered, and a host that writes down every sheet it
is asked for. Otherwise they behave as the sheet and the host inside (`insertRule_fst`,
`createSheet_fst`).
-/

namespace AtomicRules

/-- An offer of a rule to a sheet: the index, the rule and the sheet's answer. -/
structure Offer where
  index : Nat
  rule : String
  answer : Except Refusal Unit

/-- A sheet with all offers made to it so far. -/
structure Transcript (σ : Type) where
  sheet : σ
  offers : List Offer := []

namespace Transcript

variable {σ : Type} [LiveSheet σ]

instance : LiveSheet (Transcript σ) where
  ruleCount transcript := LiveSheet.ruleCount transcript.sheet
  insertRule rule index transcript :=
    let (answer, sheet) := LiveSheet.insertRule rule index transcript.sheet
    (answer, ⟨sheet, transcript.offers ++ [⟨index, rule, answer⟩]⟩)

/-- The answer to an offer is that of the sheet inside. -/
theorem insertRule_fst (transcript : Transcript σ) (rule : String) (index : Nat) :
    (LiveSheet.insertRule rule index transcript).1 =
      (LiveSheet.insertRule rule index transcript.sheet).1 := rfl

end Transcript

/-- A host with the nonces of all sheets it was asked for so far. -/
structure HostTranscript (η : Type) where
  host : η
  nonces : List (Option String) := []

namespace HostTranscript

variable {η σ : Type} [SheetHost η σ]

instance : SheetHost (HostTranscript η) σ where
  createSheet nonce? transcript :=
    let (sheet, host) := SheetHost.createSheet nonce? transcript.host
    (sheet, ⟨host, transcript.nonces ++ [nonce?]⟩)

/-- The sheet that is created is that of the host inside. -/
theorem createSheet_fst (transcript : HostTranscript η) (nonce? : Option String) :
    (SheetHost.createSheet nonce? transcript : σ × HostTranscript η).1 =
      (SheetHost.createSheet nonce? transcript.host : σ × η).1 := rfl

end HostTranscript

end AtomicRules
