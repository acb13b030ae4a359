import Bundler.Options
import Bundler.Proofs.Json.Kept

/-! Options are read back from what is written for them. The two forms of a loader, of a plugin and
of the loaders of a rule are told apart, and as JSON values all options come back. As text they come
back up to the values given to loaders and plugins, which must be ones that their own text is read
as. -/
namespace Bundler

open Options

/-! ### As values -/

theorem loaderUse?_toJson (e : LoaderEntry) : loaderUse? e.toJson = some e := by
  cases e <;> rfl

theorem pluginSpec?_toJson (p : PluginSpec) : pluginSpec? p.toJson = some p := by
  cases p <;> rfl

theorem mapM_map_eq_some {α : Type} {write : α → Json} {read : Json → Option α}
    (h : ∀ a, read (write a) = some a) (as : List α) : (as.map write).mapM read = some as := by
  induction as with
  | nil => rfl
  | cons a as ih =>
    rw [List.map_cons, List.mapM_cons, h, ih]
    rfl

/-- A list is a chain, and what is no list is a single loader. -/
theorem uses?_toJson (u : Uses) : uses? u.toJson = some u := by
  cases u with
  | chain es =>
    rw [Uses.toJson, uses?, mapM_map_eq_some loaderUse?_toJson]
    rfl
  | single e => cases e <;> rfl

theorem rule?_toJson (long : Bool) (r : RuleOptions) : rule? long r.toJson = some r := by
  simp [rule?, RuleOptions.toJson, fields?, List.lookup_cons, uses?_toJson]

theorem text?_toJson (t : Option String) : text? (some (Json.ofOption Json.string t)) = some t := by
  cases t <;> rfl

theorem map_path (p : Option Path) : p.map (Path.mk ∘ Path.text) = p := by
  cases p <;> rfl

namespace BuildOptions

/-- The members that are written for options, which may stand in any order. -/
theorem ofJson?_object (long : Bool) (o : BuildOptions) {ms output : List (String × Json)}
    (hroot : ms.lookup "root" = some (Json.ofOption Json.string (o.root.map Path.text)))
    (hentry : ms.lookup "entry" = some (Json.ofOption Json.string o.entry))
    (houtput : ms.lookup "output" = some (.object output))
    (hpath : output.lookup "path" = some (Json.ofOption Json.string (o.output.path.map Path.text)))
    (hfile : output.lookup "fileName" = some (Json.ofOption Json.string o.output.fileName))
    (hmodule : ms.lookup "module" =
      some (.object [("rules", .array (o.rules.map RuleOptions.toJson))]))
    (hplugins : ms.lookup "plugins" = some (.array (o.plugins.map PluginSpec.toJson))) :
    ofJson? long (.object ms) = some o := by
  have hrules := mapM_map_eq_some (rule?_toJson long) o.rules
  have hspecs := mapM_map_eq_some pluginSpec?_toJson o.plugins
  simp [ofJson?, fields?, hroot, hentry, houtput, hpath, hfile, hmodule, hplugins, field?,
    output?, rules?, list?, text?_toJson, map_path, hrules, hspecs]

theorem ofJson?_toJson (long : Bool) (o : BuildOptions) : ofJson? long o.toJson = some o :=
  ofJson?_object long o rfl rfl rfl rfl rfl rfl rfl

/-- The options as they are read from text, with the members of each object in order. -/
def sortedJson (o : BuildOptions) : Json :=
  let text := Json.ofOption Json.string
  .object [
    ("entry", text o.entry),
    ("module", .object [("rules", .array (o.rules.map RuleOptions.toJson))]),
    ("output", .object [("fileName", text o.output.fileName),
      ("path", text (o.output.path.map Path.text))]),
    ("plugins", .array (o.plugins.map PluginSpec.toJson)),
    ("root", text (o.root.map Path.text))]

theorem ofJson?_sortedJson (long : Bool) (o : BuildOptions) : ofJson? long o.sortedJson = some o :=
  ofJson?_object long o rfl rfl rfl rfl rfl rfl rfl

end BuildOptions

/-! ### As text -/

variable {depth : ℕ}

/-- A loader as it is read from its text, where its options may open that many brackets. -/
def LoaderEntry.reread (depth : ℕ) : LoaderEntry → Option LoaderEntry
  | name s => some (name s)
  | withOptions s o => (o.reread depth).map (withOptions s)

def PluginSpec.reread (depth : ℕ) : PluginSpec → Option PluginSpec
  | name s => some (name s)
  | configured s o => (o.reread depth).map (configured s)

/-- The loaders of a rule; those of a chain stand one bracket deeper. -/
def Uses.reread (depth : ℕ) : Uses → Option Uses
  | chain es => (es.mapM (LoaderEntry.reread depth)).map chain
  | single e => (e.reread (depth + 1)).map single

def RuleOptions.reread (depth : ℕ) (r : RuleOptions) : Option RuleOptions :=
  (r.uses.reread depth).map fun u => { r with uses := u }

namespace BuildOptions

/-- The options as they are read from their text: rules stand deeper than plugins. -/
def reread (depth : ℕ) (o : BuildOptions) : Option BuildOptions := do
  let rules ← o.rules.mapM (RuleOptions.reread depth)
  let plugins ← o.plugins.mapM (PluginSpec.reread (depth + 3))
  return { o with rules, plugins }

end BuildOptions

theorem reread_loaderEntry (e : LoaderEntry) :
    e.toJson.reread (depth + 1) = (e.reread depth).map LoaderEntry.toJson := by
  cases e with
  | name s => simp [LoaderEntry.toJson, LoaderEntry.reread, Json.reread]
  | withOptions s o =>
    have hsort (v w : Json) : Json.sortMembers [("loader", v), ("options", w)] =
        [("loader", v), ("options", w)] := rfl
    cases h : o.reread depth <;>
      simp [LoaderEntry.toJson, LoaderEntry.reread, Json.reread, Json.rereadMembers, h, hsort]

theorem reread_pluginSpec (p : PluginSpec) :
    p.toJson.reread (depth + 1) = (p.reread depth).map PluginSpec.toJson := by
  cases p with
  | name s => simp [PluginSpec.toJson, PluginSpec.reread, Json.reread]
  | configured s o =>
    have hsort (v w : Json) : Json.sortMembers [("name", v), ("options", w)] =
        [("name", v), ("options", w)] := rfl
    cases h : o.reread depth <;>
      simp [PluginSpec.toJson, PluginSpec.reread, Json.reread, Json.rereadMembers, h, hsort]

/-- A list comes back item by item. -/
theorem reread_list {α : Type} {write : α → Json} {again : α → Option α} (depth : ℕ) (as : List α)
    (h : ∀ a, (write a).reread depth = (again a).map write) :
    (Json.array (as.map write)).reread (depth + 1) =
      (as.mapM again).map fun as => .array (as.map write) := by
  have hitems : Json.rereadItems (as.map write) depth = (as.mapM again).map (List.map write) := by
    induction as with
    | nil => rfl
    | cons a as ih =>
      rw [List.map_cons, Json.rereadItems, h, ih, List.mapM_cons]
      cases again a <;> cases as.mapM again <;> rfl
  simp only [Json.reread]
  rw [hitems, Option.map_map]
  rfl

theorem reread_uses (u : Uses) : u.toJson.reread (depth + 2) = (u.reread depth).map Uses.toJson := by
  cases u with
  | chain es =>
    rw [Uses.toJson, reread_list _ es reread_loaderEntry, Uses.reread, Option.map_map]
    rfl
  | single e =>
    rw [Uses.toJson, reread_loaderEntry, Uses.reread, Option.map_map]
    rfl

theorem reread_rule (r : RuleOptions) :
    r.toJson.reread (depth + 3) = (r.reread depth).map RuleOptions.toJson := by
  have hsort (v w : Json) : Json.sortMembers [("test", v), ("use", w)] =
      [("test", v), ("use", w)] := rfl
  cases h : r.uses.reread depth <;>
    simp [RuleOptions.toJson, RuleOptions.reread, Json.reread, Json.rereadMembers, reread_uses, h,
      hsort]

theorem reread_text (t : Option String) (depth : ℕ) :
    (Json.ofOption Json.string t).reread depth = some (Json.ofOption Json.string t) := by
  cases t <;> simp [Json.ofOption, Json.reread]

theorem reread_object (ms : List (String × Json)) : (Json.object ms).reread (depth + 1) =
    (Json.rereadMembers ms depth).map fun ms => .object (Json.sortMembers ms) := by
  simp only [Json.reread]

theorem reread_options (depth : ℕ) (o : BuildOptions) :
    o.toJson.reread (depth + 6) = (o.reread depth).map BuildOptions.sortedJson := by
  have hrules := reread_list (depth + 3) o.rules reread_rule
  have hplugins := reread_list (depth + 4) o.plugins reread_pluginSpec
  have hsort (v w x y z : Json) : Json.sortMembers
      [("root", v), ("entry", w), ("output", x), ("module", y), ("plugins", z)] =
      [("entry", w), ("module", y), ("output", x), ("plugins", z), ("root", v)] := rfl
  have houtput (v w : Json) : Json.sortMembers [("path", v), ("fileName", w)] =
      [("fileName", w), ("path", v)] := rfl
  have hmodule (v : Json) : Json.sortMembers [("rules", v)] = [("rules", v)] := rfl
  cases hr : o.rules.mapM (RuleOptions.reread depth) <;>
    cases hp : o.plugins.mapM (PluginSpec.reread (depth + 3)) <;>
    simp [BuildOptions.toJson, BuildOptions.reread, BuildOptions.sortedJson, reread_object,
      Json.rereadMembers, reread_text, hrules, hplugins, hr, hp, hsort, houtput, hmodule]

namespace BuildOptions

/-- Reads options from their text. -/
def read (long : Bool) (source : List Char) : Option BuildOptions :=
  (Json.parse source).toOption.bind (ofJson? long)

theorem read_text (long : Bool) (o : BuildOptions) : read long o.toJson.text = o.reread 121 := by
  rw [read, Json.parse_text, Json.depthLimit, reread_options 121]
  cases o.reread 121 with
  | none => rfl
  | some o' => exact ofJson?_sortedJson long o'

/-- The values given to loaders and plugins are ones that come back from their text, inside the
brackets that stand around them there. -/
structure Kept (o : BuildOptions) : Prop where
  chain : ∀ r ∈ o.rules, ∀ es, r.uses = .chain es → ∀ e ∈ es, Json.Kept 121 e.options
  single : ∀ r ∈ o.rules, ∀ e, r.uses = .single e → Json.Kept 122 e.options
  plugins : ∀ p ∈ o.plugins, Json.Kept 124 p.options

end BuildOptions

theorem reread_loader_iff (e : LoaderEntry) : e.reread depth = some e ↔ Json.Kept depth e.options := by
  cases e with
  | name s => exact ⟨fun _ => .null, fun _ => rfl⟩
  | withOptions s o => simp [LoaderEntry.reread, LoaderEntry.options, Json.reread_eq_self_iff]

theorem reread_plugin_iff (p : PluginSpec) : p.reread depth = some p ↔ Json.Kept depth p.options := by
  cases p with
  | name s => exact ⟨fun _ => .null, fun _ => rfl⟩
  | configured s o => simp [PluginSpec.reread, PluginSpec.options, Json.reread_eq_self_iff]

theorem reread_rule_iff (r : RuleOptions) : r.reread depth = some r ↔
    (∀ es, r.uses = .chain es → ∀ e ∈ es, Json.Kept depth e.options) ∧
      ∀ e, r.uses = .single e → Json.Kept (depth + 1) e.options := by
  obtain ⟨test, uses⟩ := r
  cases uses with
  | chain es => simp [RuleOptions.reread, Uses.reread, Json.mapM_eq_self, reread_loader_iff]
  | single e => simp [RuleOptions.reread, Uses.reread, reread_loader_iff]

namespace BuildOptions

theorem reread_eq_self_iff (o : BuildOptions) : o.reread 121 = some o ↔ o.Kept := by
  have hparts : o.reread 121 = some o ↔ o.rules.mapM (RuleOptions.reread 121) = some o.rules ∧
      o.plugins.mapM (PluginSpec.reread 124) = some o.plugins := by
    obtain ⟨root, entry, output, rules, plugins⟩ := o
    rw [reread]
    cases rules.mapM (RuleOptions.reread 121) <;> cases plugins.mapM (PluginSpec.reread 124) <;> simp
  rw [hparts, Json.mapM_eq_self, Json.mapM_eq_self]
  simp only [reread_rule_iff, reread_plugin_iff]
  exact ⟨fun h => ⟨fun r hr => (h.1 r hr).1, fun r hr => (h.1 r hr).2, h.2⟩,
    fun h => ⟨fun r hr => ⟨h.chain r hr, h.single r hr⟩, h.plugins⟩⟩

/-- What is written for the options that a value is read as. -/
def rewritten (long : Bool) (j : Json) : Option Json := (ofJson? long j).map toJson

/-- Options come back from what is written for them. As a value they always do, so reading and
writing once more changes nothing. From text they come back just when the values in them do. -/
theorem round_trip (long : Bool) :
    (∀ o, ofJson? long o.toJson = some o) ∧
    (∀ j, (rewritten long j).bind (rewritten long) = rewritten long j) ∧
    ∀ o, read long o.toJson.text = some o ↔ o.Kept := by
  refine ⟨ofJson?_toJson long, fun j => ?_, fun o => ?_⟩
  · rw [rewritten]
    cases ofJson? long j with
    | none => rfl
    | some o =>
      rw [Option.map_some, Option.bind_some, rewritten, ofJson?_toJson]
      rfl
  · rw [read_text, reread_eq_self_iff]

/-- The double next to 10^-30 as an option. -/
def tiny : BuildOptions :=
  { plugins := [.configured "build-log" (.decimal (Float.ofScientific 1 true 30))] }

/-- A decimal may be read as another one than it was written for. -/
theorem not_read_text : ¬ ∀ (long : Bool) (o : BuildOptions), read long o.toJson.text = some o := by
  intro h
  have hread := h true tiny
  rw [read_text, reread_eq_self_iff] at hread
  have hbits : (match Json.parse (Json.decimalText (Float.ofScientific 1 true 30)) with
      | .ok (.decimal y) => y.toBits == (Float.ofScientific 1 true 30).toBits
      | _ => true) = false := by decide +kernel
  cases hread.plugins _ (List.mem_singleton_self _) with
  | decimal hdecimal =>
    rw [hdecimal] at hbits
    simp at hbits

end BuildOptions
end Bundler
