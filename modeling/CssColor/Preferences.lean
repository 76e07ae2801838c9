/-! # Preferences: texts kept under keys

A `PreferenceStore` keeps texts under keys and may fail; a `MemoryStore` keeps them as a list and
does not. A flag is kept as one of the words `true` and `false`. -/

namespace CssColor

/-- Why a store failed, in its own words. -/
structure StoreFault where
  text : String
deriving DecidableEq, Repr

/-- A place where texts are kept under keys. -/
class PreferenceStore (σ : Type) where
  get : σ → String → Except StoreFault (Option String)
  set : σ → String → String → Except StoreFault σ

/-- Texts under keys, at most one for each. -/
structure MemoryStore where
  entries : List (String × String) := []
deriving DecidableEq, Repr

namespace MemoryStore

def get? (s : MemoryStore) (key : String) : Option String := s.entries.lookup key

def insert (s : MemoryStore) (key value : String) : MemoryStore :=
  ⟨(key, value) :: s.entries.filter fun e => e.1 ≠ key⟩

instance : PreferenceStore MemoryStore where
  get s key := .ok (s.get? key)
  set s key value := .ok (s.insert key value)

end MemoryStore

namespace PreferenceStore

variable {σ : Type} [PreferenceStore σ]

/-- The word for a flag. -/
def flagWord (flag : Bool) : String := if flag then "true" else "false"

/-- The flag under a key; whatever is not the word for true counts as false. -/
def readFlag (s : σ) (key : String) : Except StoreFault Bool :=
  (get s key).map (· = some (flagWord true))

/-- The store with a flag under a key. -/
def writeFlag (s : σ) (key : String) (flag : Bool) : Except StoreFault σ :=
  set s key (flagWord flag)

end PreferenceStore

end CssColor
