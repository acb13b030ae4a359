/-! JSON values. The members of an object stand in the order they are written in;
values read from text or built with `Json.object` have them sorted by name. -/
namespace Bundler

inductive Json where
  | null
  | bool (value : Bool)
  /-- An integer from -2^63 up to 2^64 - 1. -/
  | integer (value : Int)
  | decimal (value : Float)
  | string (value : String)
  | array (items : List Json)
  | object (members : List (String × Json))
deriving Inhabited

namespace Json

/-- Puts a member in its place by name; a later member of one name replaces it. -/
def insertMember (name : String) (value : Json) : List (String × Json) → List (String × Json)
  | [] => [(name, value)]
  | (n, v) :: ms =>
    if name == n then (name, value) :: ms
    else if name < n then (name, value) :: (n, v) :: ms
    else (n, v) :: insertMember name value ms

def sortMembers (ms : List (String × Json)) : List (String × Json) :=
  ms.foldl (fun acc (n, v) => insertMember n v acc) []

def ofNat (n : Nat) : Json := integer n

def ofOption (f : α → Json) : Option α → Json
  | none => null
  | some a => f a

/-- The member of that name, nothing for a value that is no object. -/
def member? (name : String) : Json → Option Json
  | object ms => ms.lookup name
  | _ => none

def string? : Json → Option String
  | string s => some s
  | _ => none

def isNull : Json → Bool
  | null => true
  | _ => false

end Json
end Bundler
