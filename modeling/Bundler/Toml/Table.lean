import Bundler.Json.Value

/-! Tables of a TOML document while it is read. A table may be filled in several places,
but only in the ways the format allows: what a header opened is not opened again, dotted
keys add to tables that dotted keys made, and a value is final. -/
namespace Bundler.Toml

/-- How a table came about. -/
inductive Origin where
  /-- By a header of its own, or as the top of the document. -/
  | header
  /-- By a longer header that passes through it. -/
  | passed
  /-- By dotted keys. -/
  | dotted
deriving DecidableEq, Inhabited

inductive Node where
  | value (v : Json)
  | table (origin : Origin) (members : List (String × Node))
  /-- Tables under a header in double brackets, the last one first. -/
  | tables (items : List (List (String × Node)))
deriving Inhabited

abbrev Members := List (String × Node)

namespace Members

/-- Puts a node under its key, in the place of one that is there. -/
def put (key : String) (n : Node) : Members → Members
  | [] => [(key, n)]
  | (k, m) :: ms => if k == key then (k, n) :: ms else (k, m) :: put key n ms

/-- Changes the table at the end of a path. Tables that are missing on the way are made,
and of several tables under one key the last one counts. -/
def change (made : Origin) (f : Origin → Members → Option Members) :
    List String → Origin → Members → Option Members
  | [], origin, ms => f origin ms
  | k :: ks, _, ms =>
    match ms.lookup k with
    | none => do return put k (.table made (← change made f ks made [])) ms
    | some (.value _) => none
    | some (.table origin inner) =>
      if made = .dotted && origin = .header then none
      else do return put k (.table origin (← change made f ks origin inner)) ms
    | some (.tables []) => none
    | some (.tables (last :: before)) => do
      return put k (.tables ((← change made f ks .header last) :: before)) ms

/-- Adds a value under a key that is new in its table. -/
def addValue (path : List String) (key : String) (v : Json) : Origin → Members → Option Members :=
  change .dotted (fun origin ms =>
    if (origin = .dotted) = path.isEmpty || (ms.lookup key).isSome then none
    else some (ms ++ [(key, .value v)])) path

/-- Opens a table. -/
def openTable (path : List String) (key : String) (ms : Members) : Option Members :=
  change .passed (fun _ ms =>
    match ms.lookup key with
    | none => some (ms ++ [(key, .table .header [])])
    | some (.table .passed inner) => some (put key (.table .header inner) ms)
    | some _ => none) path .header ms

/-- Opens one more of several tables. -/
def openItem (path : List String) (key : String) (ms : Members) : Option Members :=
  change .passed (fun _ ms =>
    match ms.lookup key with
    | none => some (ms ++ [(key, .tables [[]])])
    | some (.tables items) => some (put key (.tables ([] :: items)) ms)
    | some _ => none) path .header ms

end Members

mutual

/-- What a finished node stands for. -/
def Node.toJson : Node → Json
  | .value v => v
  | .table _ ms => .object (Json.sortMembers (membersJson ms))
  | .tables items => .array (itemsJson items).reverse

def membersJson : List (String × Node) → List (String × Json)
  | [] => []
  | (k, n) :: ms => (k, n.toJson) :: membersJson ms

def itemsJson : List (List (String × Node)) → List Json
  | [] => []
  | ms :: items => .object (Json.sortMembers (membersJson ms)) :: itemsJson items

end

end Bundler.Toml
