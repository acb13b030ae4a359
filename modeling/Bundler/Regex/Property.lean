import Bundler.Regex.Basic

/-! The names of character properties. Case, blanks, dashes and underscores in a name do
not count, and neither does a leading `is`. -/
namespace Bundler.Regex.Property

def normalize (name : List Char) : List Char :=
  let isIgnored (c : Char) := c == ' ' || c == '_' || c == '-'
  let lower := name.map Char.toLower
  let hasIs := lower.take 2 == ['i', 's']
  let plain := ((if hasIs then lower.drop 2 else lower).filter fun c =>
    !isIgnored c && c.toNat < 128)
  if hasIs && plain == ['c'] then ['i', 's', 'c'] else plain

/-- General categories and groups of them, by their names. -/
def categoryNames : List (List String × List String) :=
  [(["lu", "uppercaseletter"], ["Lu"]), (["ll", "lowercaseletter"], ["Ll"]),
    (["lt", "titlecaseletter"], ["Lt"]), (["lm", "modifierletter"], ["Lm"]),
    (["lo", "otherletter"], ["Lo"]), (["lc", "casedletter"], ["Lu", "Ll", "Lt"]),
    (["l", "letter"], ["Lu", "Ll", "Lt", "Lm", "Lo"]),
    (["mn", "nonspacingmark"], ["Mn"]), (["mc", "spacingmark"], ["Mc"]),
    (["me", "enclosingmark"], ["Me"]),
    (["m", "mark", "combiningmark"], ["Mn", "Mc", "Me"]),
    (["nd", "decimalnumber", "digit"], ["Nd"]), (["nl", "letternumber"], ["Nl"]),
    (["no", "othernumber"], ["No"]), (["n", "number"], ["Nd", "Nl", "No"]),
    (["pc", "connectorpunctuation"], ["Pc"]), (["pd", "dashpunctuation"], ["Pd"]),
    (["ps", "openpunctuation"], ["Ps"]), (["pe", "closepunctuation"], ["Pe"]),
    (["pi", "initialpunctuation"], ["Pi"]), (["pf", "finalpunctuation"], ["Pf"]),
    (["po", "otherpunctuation"], ["Po"]),
    (["p", "punct", "punctuation"], ["Pc", "Pd", "Ps", "Pe", "Pi", "Pf", "Po"]),
    (["sm", "mathsymbol"], ["Sm"]), (["sc", "currencysymbol"], ["Sc"]),
    (["sk", "modifiersymbol"], ["Sk"]), (["so", "othersymbol"], ["So"]),
    (["s", "symbol"], ["Sm", "Sc", "Sk", "So"]),
    (["zs", "spaceseparator"], ["Zs"]), (["zl", "lineseparator"], ["Zl"]),
    (["zp", "paragraphseparator"], ["Zp"]), (["z", "separator"], ["Zs", "Zl", "Zp"]),
    (["cc", "control", "cntrl"], ["Cc"]), (["cf", "format"], ["Cf"]),
    (["co", "privateuse"], ["Co"]), (["cn", "unassigned"], ["Cn"]),
    (["c", "other"], ["Cc", "Cf", "Co", "Cn", "Cs"])]

def category? (name : String) : Option CharSet :=
  if name == "any" then some (.property .any)
  else if name == "ascii" then some (.range '\x00' '\x7f')
  else if name == "assigned" then
    some (.complement (.property (.categories [.unassigned])))
  else (categoryNames.find? fun entry => entry.1.contains name).map fun entry =>
    .property (.categories (entry.2.filterMap Text.Category.ofCode?))

def script? (name : String) : Option CharSet :=
  (Text.Script.ofName? name).map fun code => .property (.script code)

/-- Properties that a character has or has not. -/
def binary? (name : String) : Option CharSet :=
  match name with
  | "alphabetic" | "alpha" => some (.property .alphabetic)
  | "lowercase" | "lower" => some (.property .lowerCase)
  | "uppercase" | "upper" => some (.property .upperCase)
  | "whitespace" | "wspace" | "space" => some (.property .white)
  | _ => none

/-- The set a single name stands for. -/
def named? (name : List Char) : Option CharSet :=
  let name := String.ofList (normalize name)
  (binary? name).orElse fun _ => (category? name).orElse fun _ => script? name

inductive Lookup where
  | found (s : CharSet)
  | noProperty
  | noValue

/-- The set that a property and its value stand for. -/
def valued (name value : List Char) : Lookup :=
  let value := String.ofList (normalize value)
  let answer (s : Option CharSet) := match s with
    | some s => Lookup.found s
    | none => .noValue
  match String.ofList (normalize name) with
  | "generalcategory" | "gc" => answer (category? value)
  | "script" | "sc" | "scriptextensions" | "scx" => answer (script? value)
  | name => if (binary? name).isSome then .noValue else .noProperty

end Bundler.Regex.Property
