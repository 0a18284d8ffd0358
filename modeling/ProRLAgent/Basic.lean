import Mathlib.Data.Nat.Notation
import Mathlib.Data.Int.Notation

set_option relaxedAutoImplicit false
set_option autoImplicit false

/-!
# Shared vocabulary

Names that several parts of the model use: the chat roles, token ids and the exceptions of the
program.

## Main definitions

* `ProRLAgent.Role` — the role of a chat message.
* `ProRLAgent.PyError` — the exceptions that the modelled functions raise.
-/

namespace ProRLAgent

/-- A token id. -/
abbrev Token := ℕ

/-- The role of a chat message. -/
inductive Role where
  | system
  | user
  | assistant
  | tool
  deriving DecidableEq, Repr

/-- The name of a role. -/
def Role.name : Role → String
  | .system => "system"
  | .user => "user"
  | .assistant => "assistant"
  | .tool => "tool"

/-- The exceptions that the modelled functions raise. -/
inductive PyError where
  /-- A missing dictionary key. -/
  | keyError (key : String)
  /-- An index outside a list. -/
  | indexError
  /-- A bad value. -/
  | valueError (message : String)
  /-- A value of the wrong type. -/
  | typeError (message : String)
  /-- A failed runtime check. -/
  | runtimeError (message : String)
  /-- A failed assertion. -/
  | assertionError
  /-- The prompt leaves no room for a completion. -/
  | contextWindowExceeded (inputLength : ℕ) (maxTokens maxModelLen : ℤ)
  /-- An exception of a library or of the outside world. -/
  | other (message : String)
  deriving DecidableEq, Repr

end ProRLAgent
