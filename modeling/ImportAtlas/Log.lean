/-!
# Logged computations

A computation that leaves messages behind. Its value does not depend on them: `value_bind` says
that the value of a sequence is the sequence of the values.
-/

namespace ImportAtlas

namespace Log

inductive Level where
  | error
  | warn
  | info
  | debug
  | trace
  deriving DecidableEq, Repr, Inhabited

namespace Level

def name : Level → String
  | error => "ERROR"
  | warn => "WARN"
  | info => "INFO"
  | debug => "DEBUG"
  | trace => "TRACE"

/-- The more severe, the lower. -/
def rank : Level → Nat
  | error => 1
  | warn => 2
  | info => 3
  | debug => 4
  | trace => 5

end Level

inductive Area where
  | config
  | discovery
  | graph
  | parsers
  | repo
  | resolver
  | server
  | cli
  deriving DecidableEq, Repr, Inhabited

def Area.name : Area → String
  | config => "config"
  | discovery => "discovery"
  | graph => "graph"
  | parsers => "parsers"
  | repo => "repo"
  | resolver => "resolver"
  | server => "server"
  | cli => "cli"

structure Entry where
  level : Level
  area : Area
  text : String
  deriving DecidableEq, Repr, Inhabited

def atLeast (level : Level) (log : List Entry) : List Entry :=
  log.filter (·.level.rank ≤ level.rank)

end Log

structure Logged (α : Type) where
  value : α
  log : List Log.Entry
  deriving Repr

namespace Logged

variable {α β : Type}

instance [Inhabited α] : Inhabited (Logged α) := ⟨⟨default, []⟩⟩

instance : Monad Logged where
  pure a := ⟨a, []⟩
  bind x f := ⟨(f x.value).value, x.log ++ (f x.value).log⟩

def tell (area : Log.Area) (level : Log.Level) (text : String) : Logged Unit :=
  ⟨(), [⟨level, area, text⟩]⟩

/-- The value after the messages of a list. -/
def after (log : List Log.Entry) (a : α) : Logged α := ⟨a, log⟩

@[simp] theorem value_pure (a : α) : (pure a : Logged α).value = a := rfl

@[simp] theorem log_pure (a : α) : (pure a : Logged α).log = [] := rfl

@[simp] theorem value_bind (x : Logged α) (f : α → Logged β) :
    (x >>= f).value = (f x.value).value := rfl

@[simp] theorem log_bind (x : Logged α) (f : α → Logged β) :
    (x >>= f).log = x.log ++ (f x.value).log := rfl

@[simp] theorem value_map (f : α → β) (x : Logged α) : (f <$> x).value = f x.value := rfl

/-- The values of a function over a list, one after another. -/
def each (f : α → Logged β) : List α → Logged (List β)
  | [] => pure []
  | a :: as => do
    let b ← f a
    let bs ← each f as
    return b :: bs

@[simp] theorem value_each (f : α → Logged β) (as : List α) :
    (each f as).value = as.map fun a => (f a).value := by
  induction as with
  | nil => rfl
  | cons a as ih => simp [each, ih]

end Logged

end ImportAtlas
