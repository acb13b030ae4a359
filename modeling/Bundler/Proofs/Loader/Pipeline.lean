import Bundler.Loader.Pipeline
import Mathlib.Data.List.Basic

/-! The loaders of a file as one sequence. Rules that apply follow each other and a chain runs
from its end, so the loaders of a file run in one order, each on what the one before it answered,
up to the first that fails. Only this order matters, not how the rules group it. -/
namespace Bundler

/-- The loaders that apply to a file, in the order they run. -/
def LoaderRule.entries (rules : List LoaderRule) (resource : Path) : List LoaderEntry :=
  (rules.filter (·.applies resource)).flatMap (·.uses.order)

/-- A loader that ran: for which entry, on which content and with which answer. -/
structure LoaderRun where
  entry : LoaderEntry
  given : List Char
  answer : Except String (List Char)

/-- Why an entry ends the sequence on some content. An unknown loader does not run. -/
inductive Stops (ls : Loaders) (key : Key) (resource : Path) (content : List Char)
    (entry : LoaderEntry) : List LoaderRun → BuildError → Prop
  | unknown (hloader : ls.find? entry.loader = none) :
      Stops ls key resource content entry [] (.unknownLoader entry.loader key {})
  | refused {loader : Loader} {reason : String} (hloader : ls.find? entry.loader = some loader)
      (hanswer : loader ⟨key, resource, entry.options⟩ content = .error reason) :
      Stops ls key resource content entry [⟨entry, content, .error reason⟩]
        (.loaderFailed entry.loader key {} reason)

/-- The entries are worked off from the content on: these loaders run, and this is the result. -/
inductive Threads (ls : Loaders) (key : Key) (resource : Path) :
    List LoaderEntry → List Char → List LoaderRun → Except BuildError (List Char) → Prop
  | done {content : List Char} : Threads ls key resource [] content [] (.ok content)
  | pass {entry : LoaderEntry} {entries : List LoaderEntry} {loader : Loader}
      {content next : List Char} {runs : List LoaderRun} {result : Except BuildError (List Char)}
      (hloader : ls.find? entry.loader = some loader)
      (hanswer : loader ⟨key, resource, entry.options⟩ content = .ok next)
      (hrest : Threads ls key resource entries next runs result) :
      Threads ls key resource (entry :: entries) content (⟨entry, content, .ok next⟩ :: runs) result
  | stop {entry : LoaderEntry} {entries : List LoaderEntry} {content : List Char}
      {runs : List LoaderRun} {e : BuildError} (h : Stops ls key resource content entry runs e) :
      Threads ls key resource (entry :: entries) content runs (.error e)

variable {ls : Loaders} {key : Key} {resource : Path} {content next : List Char}
  {entry : LoaderEntry} {es : List LoaderEntry} {loader : Loader}
  {runs runs' : List LoaderRun} {result result' : Except BuildError (List Char)}
  {e e' : BuildError}

namespace Stops

theorem not_pass (h : Stops ls key resource content entry runs e)
    (hloader : ls.find? entry.loader = some loader) :
    loader ⟨key, resource, entry.options⟩ content ≠ .ok next := by
  cases h with
  | unknown hunknown =>
    rw [hunknown] at hloader
    cases hloader
  | refused hloader' hanswer =>
    cases hloader'.symm.trans hloader
    rw [hanswer]
    exact nofun

theorem unique (h : Stops ls key resource content entry runs e)
    (h' : Stops ls key resource content entry runs' e') : runs' = runs ∧ e' = e := by
  cases h with
  | unknown hloader =>
    cases h' with
    | unknown => exact ⟨rfl, rfl⟩
    | refused hloader' => cases hloader.symm.trans hloader'
  | refused hloader hanswer =>
    cases h' with
    | unknown hloader' => cases hloader.symm.trans hloader'
    | refused hloader' hanswer' =>
      cases hloader.symm.trans hloader'
      cases hanswer.symm.trans hanswer'
      exact ⟨rfl, rfl⟩

/-- Only the name that no loader has makes it an unknown one. -/
theorem isUnknown_iff (h : Stops ls key resource content entry runs e) :
    (∃ name k origin, e = .unknownLoader name k origin) ↔ ls.find? entry.loader = none := by
  cases h with
  | unknown hloader => exact ⟨fun _ => hloader, fun _ => ⟨_, _, _, rfl⟩⟩
  | refused hloader =>
    rw [hloader]
    refine ⟨?_, nofun⟩
    rintro ⟨_, _, _, h⟩
    cases h

end Stops

namespace Threads

theorem exists_runs (ls : Loaders) (key : Key) (resource : Path) (es : List LoaderEntry)
    (content : List Char) :
    ∃ runs, Threads ls key resource es content runs
      (es.foldlM (LoaderEntry.run ls key resource) content) := by
  induction es generalizing content with
  | nil => exact ⟨[], .done⟩
  | cons entry es ih =>
    rw [List.foldlM_cons, LoaderEntry.run]
    cases hloader : ls.find? entry.loader with
    | none => exact ⟨[], .stop (.unknown hloader)⟩
    | some loader =>
      dsimp only
      cases hanswer : loader ⟨key, resource, entry.options⟩ content with
      | error reason => exact ⟨_, .stop (.refused hloader hanswer)⟩
      | ok next =>
        obtain ⟨runs, hruns⟩ := ih next
        exact ⟨_, .pass hloader hanswer hruns⟩

theorem unique (h : Threads ls key resource es content runs result)
    (h' : Threads ls key resource es content runs' result') :
    runs' = runs ∧ result' = result := by
  induction h generalizing runs' with
  | done =>
    cases h'
    exact ⟨rfl, rfl⟩
  | pass hloader hanswer _ ih =>
    cases h' with
    | pass hloader' hanswer' hrest =>
      cases hloader.symm.trans hloader'
      cases hanswer.symm.trans hanswer'
      obtain ⟨rfl, rfl⟩ := ih hrest
      exact ⟨rfl, rfl⟩
    | stop hstop => exact absurd hanswer (hstop.not_pass hloader)
  | stop hstop =>
    cases h' with
    | pass hloader hanswer => exact absurd hanswer (hstop.not_pass hloader)
    | stop hstop' =>
      obtain ⟨rfl, rfl⟩ := hstop.unique hstop'
      exact ⟨rfl, rfl⟩

/-- A sequence that fails went through some entries, in order, and stopped at the next one. -/
theorem exists_stop (h : Threads ls key resource es content runs (.error e)) :
    ∃ front entry back ran mid last, es = front ++ entry :: back ∧ runs = ran ++ last ∧
      Threads ls key resource front content ran (.ok mid) ∧ ran.map (·.entry) = front ∧
      Stops ls key resource mid entry last e := by
  generalize hresult : (Except.error e : Except BuildError (List Char)) = result at h
  induction h with
  | done => cases hresult
  | pass hloader hanswer _ ih =>
    obtain ⟨front, entry, back, ran, mid, last, rfl, rfl, hran, hfront, hstop⟩ := ih hresult
    exact ⟨_ :: front, entry, back, _ :: ran, mid, last, rfl, rfl, .pass hloader hanswer hran,
      by rw [List.map_cons, hfront], hstop⟩
  | stop hstop =>
    cases hresult
    exact ⟨[], _, _, [], _, _, rfl, rfl, .done, rfl, hstop⟩

end Threads

namespace LoaderRule

variable {rules : List LoaderRule}

theorem applyAll_eq_foldlM (rules : List LoaderRule) (ls : Loaders) (key : Key) (resource : Path)
    (content : List Char) : applyAll rules ls key resource content =
      (entries rules resource).foldlM (LoaderEntry.run ls key resource) content := by
  rw [applyAll, entries]
  induction rules.filter (·.applies resource) generalizing content with
  | nil => rfl
  | cons rule rules ih =>
    rw [List.foldlM_cons, List.flatMap_cons, List.foldlM_append]
    exact bind_congr ih

theorem entries_append (front back : List LoaderRule) (resource : Path) :
    entries (front ++ back) resource = entries front resource ++ entries back resource := by
  rw [entries, List.filter_append, List.flatMap_append]
  rfl

/-- A chain is worth its entries as rules of their own, from the last one on. -/
theorem entries_chain (pattern : String) (test : Regex) (es : List LoaderEntry) (resource : Path) :
    entries [⟨pattern, test, .chain es⟩] resource =
      entries (es.reverse.map fun entry => ⟨pattern, test, .single entry⟩) resource := by
  have happlies (uses : Uses) :
      (⟨pattern, test, uses⟩ : LoaderRule).applies resource = test.isMatch resource.text := rfl
  simp only [entries]
  cases hmatch : test.isMatch resource.text with
  | false => simp [happlies, hmatch]
  | true =>
    simp only [List.filter_cons, List.filter_map, happlies, hmatch, if_true, List.filter_nil,
      Function.comp_def, List.filter_true, List.flatMap_cons, List.flatMap_nil, List.append_nil,
      List.flatMap_map, Uses.order]
    exact (List.flatMap_singleton' es.reverse).symm

/-- The content of a file is that of running the loaders of its rules one after another, whose
order is all that matters about the rules. When this fails, the loaders in front of the one that
is named have run, and no others. -/
theorem applyAll_composes (ls : Loaders) (key : Key) (resource : Path) (rules : List LoaderRule)
    (content : List Char) :
    (∃ runs, ∀ runs' result,
      Threads ls key resource (entries rules resource) content runs' result ↔
        runs' = runs ∧ result = applyAll rules ls key resource content) ∧
    (∀ front back, applyAll (front ++ back) ls key resource content =
      applyAll front ls key resource content >>= applyAll back ls key resource) ∧
    (∀ front pattern test es back,
      applyAll (front ++ ⟨pattern, test, .chain es⟩ :: back) ls key resource content =
        applyAll (front ++ (es.reverse.map fun entry => ⟨pattern, test, .single entry⟩) ++ back)
          ls key resource content) ∧
    ∀ e, applyAll rules ls key resource content = .error e →
      ∃ front entry back ran mid last, entries rules resource = front ++ entry :: back ∧
        Threads ls key resource front content ran (.ok mid) ∧ ran.map (·.entry) = front ∧
        Stops ls key resource mid entry last e ∧
        Threads ls key resource (entries rules resource) content (ran ++ last) (.error e) ∧
        ((∃ name k origin, e = .unknownLoader name k origin) ↔ ls.find? entry.loader = none) := by
  obtain ⟨runs, hruns⟩ := Threads.exists_runs ls key resource (entries rules resource) content
  rw [← applyAll_eq_foldlM] at hruns
  refine ⟨⟨runs, fun runs' result => ⟨hruns.unique, ?_⟩⟩, ?_, ?_, ?_⟩
  · rintro ⟨rfl, rfl⟩
    exact hruns
  · intro front back
    rw [applyAll, List.filter_append, List.foldlM_append]
    rfl
  · intro front pattern test es back
    rw [applyAll_eq_foldlM, applyAll_eq_foldlM, ← List.singleton_append, entries_append,
      entries_append, entries_chain, entries_append, entries_append, List.append_assoc]
  · intro e he
    rw [he] at hruns
    obtain ⟨front, entry, back, ran, mid, last, hentries, rfl, hran, hfront, hstop⟩ :=
      hruns.exists_stop
    exact ⟨front, entry, back, ran, mid, last, hentries, hran, hfront, hstop, hruns,
      hstop.isUnknown_iff⟩

/-- A loader that puts a mark behind the content, and one that gives up. -/
def marking : Loaders :=
  (({} : Loaders).insert "mark" fun _ content => .ok (content ++ ['!'])).insert "stop"
    fun _ _ => .error "too long"

/-- A chain with a loader that is unknown, behind a rule for other files. -/
def mixedRules : List LoaderRule :=
  [("[.]css$", .single (.name "none")), ("[.]txt$", .chain [.name "lost", .name "mark"]),
    ("a", .single (.name "stop"))].filterMap fun r => (compile r.1 r.2).toOption

theorem applyAll_composes_mixed :
    applyAll mixedRules marking "./a.txt" ⟨"/p/a.txt"⟩ ['x'] =
      .error (.unknownLoader "lost" "./a.txt" {}) ∧
    ∃ front entry back ran mid last,
      entries mixedRules ⟨"/p/a.txt"⟩ = front ++ entry :: back ∧
      Threads marking "./a.txt" ⟨"/p/a.txt"⟩ front ['x'] ran (.ok mid) ∧
      ran.map (·.entry) = front ∧
      Stops marking "./a.txt" ⟨"/p/a.txt"⟩ mid entry last (.unknownLoader "lost" "./a.txt" {}) ∧
      Threads marking "./a.txt" ⟨"/p/a.txt"⟩ (entries mixedRules ⟨"/p/a.txt"⟩) ['x'] (ran ++ last)
        (.error (.unknownLoader "lost" "./a.txt" {})) ∧
      ((∃ name k origin, BuildError.unknownLoader "lost" "./a.txt" {} = .unknownLoader name k origin) ↔
        marking.find? entry.loader = none) := by
  have hfails : applyAll mixedRules marking "./a.txt" ⟨"/p/a.txt"⟩ ['x'] =
      .error (.unknownLoader "lost" "./a.txt" {}) := by decide +kernel
  exact ⟨hfails, (applyAll_composes marking "./a.txt" ⟨"/p/a.txt"⟩ mixedRules ['x']).2.2.2 _ hfails⟩

end LoaderRule
end Bundler
