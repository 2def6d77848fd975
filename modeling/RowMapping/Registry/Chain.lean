import RowMapping.Types.Descriptor

/-! Factory chains: factories in order of priority, the newest first, and a cache of what they built.
A registration clears the cache and begins a new generation. -/
namespace RowMapping

structure Chain (Factory Mapper : Type) where
  factories : List Factory
  cache : List (Descriptor × Mapper)
  generation : Nat
  deriving Inhabited, Repr

namespace Chain

variable {Factory Mapper : Type}

def of (factories : List Factory) : Chain Factory Mapper := ⟨factories, [], 0⟩

def cached? (c : Chain Factory Mapper) (key : Descriptor) : Option Mapper :=
  (c.cache.find? fun e => e.1.same key).map (·.2)

def store (c : Chain Factory Mapper) (key : Descriptor) (m : Mapper) : Chain Factory Mapper :=
  { c with cache := (key, m) :: c.cache.filter fun e => !e.1.same key }

def register (c : Chain Factory Mapper) (f : Factory) : Chain Factory Mapper :=
  ⟨f :: c.factories, [], c.generation + 1⟩

/-- The same factories and cache, with a history of its own. -/
def snapshot (c : Chain Factory Mapper) : Chain Factory Mapper := { c with generation := 0 }

def scan {m : Type → Type} [Monad m] (ask : Factory → m (Option Mapper)) :
    List Factory → m (Option Mapper)
  | [] => pure none
  | f :: fs => do
    match ← ask f with
    | some mapper => pure (some mapper)
    | none => scan ask fs

end Chain
end RowMapping
