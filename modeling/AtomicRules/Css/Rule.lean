/-!
# Rule text

Declarations and labelled bodies, written without any blanks. Nothing is escaped: a label, a
property and a value stand as they are.
-/

namespace AtomicRules.Rule

/-- The declaration that gives a property a value. -/
def declaration (property value : String) : String :=
  property ++ ":" ++ value ++ ";"

/-- The body in braces after its label. -/
def labelled (label body : String) : String :=
  label ++ "\x7b" ++ body ++ "\x7d"

/-- The body after its label, or alone where there is none. An empty label is still a label. -/
def wrap (label? : Option String) (body : String) : String :=
  match label? with
  | some label => labelled label body
  | none => body

@[simp] theorem toList_declaration (property value : String) :
    (declaration property value).toList =
      property.toList ++ ':' :: (value.toList ++ [';']) := by
  simp [declaration]

@[simp] theorem toList_labelled (label body : String) :
    (labelled label body).toList = label.toList ++ '\x7b' :: (body.toList ++ ['\x7d']) := by
  simp [labelled]

@[simp] theorem wrap_none (body : String) : wrap none body = body := rfl

@[simp] theorem wrap_some (label body : String) : wrap (some label) body = labelled label body :=
  rfl

end AtomicRules.Rule
