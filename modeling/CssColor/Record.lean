/-! # Records: what a computation reports along the way

A `Record` is a message with a level and a source. A computation that reports is a value with its
records in the order they arise, `Logged α`; what becomes of the records is decided elsewhere. -/

namespace CssColor

/-- The weight of a record, from the gravest to the slightest. -/
inductive Level where
  | error | warn | info | debug | trace
deriving DecidableEq, Repr

namespace Level

def all : List Level := [error, warn, info, debug, trace]

/-- The place among the levels, counted from the gravest. -/
def rank : Level → Nat
  | error => 1
  | warn => 2
  | info => 3
  | debug => 4
  | trace => 5

def name : Level → String
  | error => "ERROR"
  | warn => "WARN"
  | info => "INFO"
  | debug => "DEBUG"
  | trace => "TRACE"

end Level

/-- A message with its level and the part of the program it comes from. -/
structure Record where
  level : Level
  source : String
  message : String
deriving DecidableEq, Repr

/-- A value with the records that arose on the way to it. -/
structure Logged (α : Type) where
  value : α
  records : List Record := []
deriving Repr

namespace Logged

variable {α β : Type}

/-- A value and a single record. -/
def report (level : Level) (source message : String) : Logged Unit :=
  ⟨(), [⟨level, source, message⟩]⟩

instance : Monad Logged where
  pure a := ⟨a, []⟩
  bind x f := ⟨(f x.value).value, x.records ++ (f x.value).records⟩

@[simp] theorem value_pure (a : α) : (pure a : Logged α).value = a := rfl

@[simp] theorem records_pure (a : α) : (pure a : Logged α).records = [] := rfl

@[simp] theorem value_bind (x : Logged α) (f : α → Logged β) :
    (x >>= f).value = (f x.value).value := rfl

@[simp] theorem records_bind (x : Logged α) (f : α → Logged β) :
    (x >>= f).records = x.records ++ (f x.value).records := rfl

@[simp] theorem value_report (level : Level) (source message : String) :
    (report level source message).value = () := rfl

end Logged

end CssColor
