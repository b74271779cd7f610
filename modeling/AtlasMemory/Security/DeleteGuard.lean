import AtlasMemory.Foundations.PyText

/-!
# The delete guard

The prefixes of the keys that a client may not delete.
-/

namespace AtlasMemory

namespace DeleteGuard

/-- `DELETE_PROTECTED_PREFIXES`. -/
def protectedPrefixes : List String :=
  ["hermes:", "fact:", "prompt-", "mnemosyne:", "rule:", "preference:", "constraint:", "config:"]

/-- `is_delete_protected`: the prefix that matches, if one does. -/
def isDeleteProtected (key : String) : Option String :=
  protectedPrefixes.find? fun pre => PyString.startsWith key pre

def Protects (key : String) : Prop := (isDeleteProtected key).isSome = true

instance (key : String) : Decidable (Protects key) := inferInstanceAs (Decidable (_ = true))

lemma protects_iff (key : String) :
    Protects key ↔ ∃ pre ∈ protectedPrefixes, PyString.startsWith key pre = true :=
  List.find?_isSome

end DeleteGuard

end AtlasMemory
