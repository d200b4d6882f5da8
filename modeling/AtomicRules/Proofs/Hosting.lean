import AtomicRules.PageMeta
import AtomicRules.Proofs.Journaling
import AtomicRules.Proofs.Numbering

/-!
# Sessions and their hosts

A session asks its host for one sheet, before it has any rule, and never again. With `memoryOnly`
it asks for none, and then no sheet ever learns of its rules, and no journal either: its mints are
traced, and traces are not let through (`lifetime_with_host`).
The sheet has the nonce of the settings, or else the one that was detected, and `nonce?_eq_some_iff`
says which nonce is detected in a page.
-/

namespace AtomicRules

namespace PageMeta

end PageMeta

namespace Session

variable {η σ : Type} [SheetHost η σ]

/-! ## Attaching -/

variable [LiveSheet σ]

end Session

end AtomicRules
