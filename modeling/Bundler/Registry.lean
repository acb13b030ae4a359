/-! Things under a name, sorted by it. -/
namespace Bundler

structure Registry (α : Type) where
  entries : List (String × α) := []
deriving Inhabited

namespace Registry

def insertSorted (name : String) (value : α) : List (String × α) → List (String × α)
  | [] => [(name, value)]
  | (n, v) :: es =>
    if name == n then (name, value) :: es
    else if name < n then (name, value) :: (n, v) :: es
    else (n, v) :: insertSorted name value es

/-- Adds a thing; it replaces one of the same name. -/
def insert (r : Registry α) (name : String) (value : α) : Registry α :=
  ⟨insertSorted name value r.entries⟩

def find? (r : Registry α) (name : String) : Option α := r.entries.lookup name

def contains (r : Registry α) (name : String) : Bool := (r.find? name).isSome

def names (r : Registry α) : List String := r.entries.map (·.1)

end Registry
end Bundler
