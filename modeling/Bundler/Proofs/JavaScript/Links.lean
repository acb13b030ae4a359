import Bundler.Proofs.Edit
import Bundler.Proofs.JavaScript.Loads
import Bundler.Proofs.JavaScript.Statements
import Bundler.Proofs.Rewrite

/-! The text of a rewritten module. It is the common form of the source, in which each load call
was directed to the registry: the name of the call and its first argument are replaced, and all
else stands. -/
namespace Bundler

open JavaScript

/-- Behind a position the first text holds these load calls, one behind the other. In the second
text each of them calls the registry with the key of its dependency; all else is the same. -/
inductive Linked : ℕ → List CallSite → List Dependency → List Char → List Char → Prop
  | done (at_ : ℕ) (text : List Char) : Linked at_ [] [] text text
  | call {at_ : ℕ} {load : CallSite} {loads : List CallSite} {d : Dependency} {ds : List Dependency}
      {w l : Lexeme} {front between rest rest' : List Char}
      (hname : load.callee = some w) (hloader : w.text = Rewrite.loader.toList)
      (hfirst : load.arguments.head? = some (.literal d.specifier.toList l.span))
      (hvalue : d.specifier.toList = Literal.value l.text)
      (hfront : w.span.start = at_ + Text.size front)
      (hbetween : l.span.start = w.span.stop + Text.size between)
      (h : Linked l.span.stop loads ds rest rest') :
      Linked at_ (load :: loads) (d :: ds) (front ++ w.text ++ (between ++ l.text ++ rest))
        (front ++ Rewrite.registry.toList ++ (between ++ Json.literal d.key.toList ++ rest'))

namespace JavaScript

variable {source rest : List Char} {at_ : ℕ}

/-- The tree of a source fits it, and its words take up room. -/
theorem program_reads {p : Program} (h : program source = .ok p) :
    p.Sound source ∧ ∀ s ∈ p.body, s.Keyed ∧ Node.AllWorded s.parts := by
  rw [program] at h
  cases hparse : Program.parse source with
  | error e => rw [hparse] at h; cases h
  | ok q =>
    rw [hparse] at h
    cases h
    exact Program.parse_reads hparse

theorem program_sound {p : Program} (h : program source = .ok p) : p.Sound source :=
  (program_reads h).1

/-- A lexeme behind a cursor, seen from there. -/
theorem Lexeme.Stands.behind {w : Lexeme} (h : w.Stands source)
    (hc : (⟨rest, at_⟩ : Cursor).At source) (hle : at_ ≤ w.span.start) :
    ∃ front back, rest = front ++ w.text ++ back ∧ w.span.start = at_ + Text.size front ∧
      w.span.stop = w.span.start + Text.size w.text ∧
      (⟨back, w.span.stop⟩ : Cursor).At source := by
  obtain ⟨before, back, hsource, hbefore, hstop⟩ := h
  have hw : (⟨w.text ++ back, w.span.start⟩ : Cursor).At source :=
    ⟨before, by rw [hsource, List.append_assoc], hbefore⟩
  obtain ⟨front, hrest, hstart⟩ := hc.exists_between hw hle
  refine ⟨front, back, by simpa using hrest, hstart, hstop, ?_⟩
  rw [hstop]
  exact hw.append

end JavaScript

namespace Rewrite

variable {key : Key} {root : Path} {source rest : List Char} {at_ : ℕ} {loads : List CallSite}
  {resolved : List (Dependency × List Edit)}

/-- Load calls that stand in a text one behind the other become calls of the registry. -/
theorem splice_linked (hat : (⟨rest, at_⟩ : Cursor).At source)
    (hresolved :
      List.Forall₂ (fun load x => resolveCall key root source load = .ok x) loads resolved)
    (hloader : ∀ load ∈ loads, load.calleeIs loader = true ∧ at_ ≤ load.span.start)
    (hstands : ∀ load ∈ loads, load.Stands source)
    (hpairs : loads.Pairwise CallSite.Precedes) :
    Edit.Chained at_ (resolved.flatMap (·.2)) ∧
      Linked at_ loads (resolved.map (·.1)) rest (Edit.splice at_ rest (resolved.flatMap (·.2))) := by
  induction hresolved generalizing at_ rest with
  | nil => exact ⟨trivial, .done at_ rest⟩
  | @cons load x loads resolved hload _ ih =>
    obtain ⟨d, edits⟩ := x
    obtain ⟨-, span, hfirst, rfl⟩ := resolveCall_eq_ok hload
    obtain ⟨hcallee, hlow⟩ := hloader load List.mem_cons_self
    obtain ⟨hbehind, hpairs⟩ := List.pairwise_cons.mp hpairs
    obtain ⟨w, hname, hw⟩ := (Option.any_eq_true _ load.callee).mp hcallee
    obtain ⟨l, hvalue, rfl, hwstands, hlstands, hstart, horder⟩ :=
      hstands load List.mem_cons_self w _ span hname hfirst
    obtain ⟨front, back, rfl, hfront, hwstop, hback⟩ :=
      hwstands.behind hat (Nat.le_trans hlow hstart)
    obtain ⟨between, rest, rfl, hbetween, hlstop, hrest⟩ := hlstands.behind hback horder
    obtain ⟨hchained, hlinked⟩ := ih hrest
      (fun c hc => ⟨(hloader c (List.mem_cons_of_mem _ hc)).1, (hbehind c hc).2 w _ _ hname hfirst⟩)
      (fun c hc => hstands c (List.mem_cons_of_mem _ hc)) hpairs
    rw [hname]
    have hwle : w.span.start ≤ w.span.stop := by omega
    have hlle : l.span.start ≤ l.span.stop := by omega
    refine ⟨⟨Nat.le_trans hlow hstart, hwle, horder, hlle, hchained⟩, ?_⟩
    rw [List.flatMap_cons, List.map_cons, Option.toList_some, List.map_singleton,
      List.singleton_append, List.cons_append, List.singleton_append, Edit.splice_cons hfront hwstop,
      Edit.splice_cons hbetween hlstop]
    exact .call hname (beq_iff_eq.mp hw) hfirst hvalue hfront hbetween hlinked

/-- The edits of all load calls of a tree stand one behind the other, and link its text. -/
theorem callSites_linked {p : Program} (hsound : p.Sound source)
    (hresolved : List.Forall₂ (fun load x => resolveCall key root source load = .ok x)
      ((p.callSites source).filter (·.calleeIs loader)) resolved) :
    Edit.Chained 0 (resolved.flatMap (·.2)) ∧
      Linked 0 ((p.callSites source).filter (·.calleeIs loader)) (resolved.map (·.1)) source
        (Edit.splice 0 source (resolved.flatMap (·.2))) :=
  splice_linked (Cursor.at_start source) hresolved
    (fun _ hc => ⟨(List.mem_filter.mp hc).2, Nat.zero_le _⟩)
    (fun c hc => hsound.callSites_stand c (List.mem_filter.mp hc).1)
    (hsound.callSites_pairwise.filter _)

end Rewrite

/-- A rewritten module is linked by its common form. -/
theorem rewrite_linked {root : Path} {key : Key} {source : List Char} {r : Rewritten}
    (h : rewrite .javaScript root key source = .ok r) :
    ∃ normal p, commonForm source = .ok normal ∧ program normal = .ok p ∧
      Linked 0 ((p.callSites normal).filter (·.calleeIs Rewrite.loader)) r.dependencies
        normal r.source := by
  obtain ⟨normal, parsed, hnormal, hparsed, hr⟩ := rewrite_eq_ok h
  obtain ⟨resolved, hall, rfl⟩ := Rewrite.rewriteCalls_eq_ok hr
  obtain ⟨p, hp, rfl⟩ := javaScript_parsed_eq_ok hparsed
  refine ⟨normal, p, hnormal, hp, ?_⟩
  have hsound := program_sound hp
  rw [Rewrite.loadCalls_callSites hsound] at hall
  obtain ⟨hchained, hlinked⟩ := Rewrite.callSites_linked hsound hall
  change Linked 0 _ _ normal (Edit.apply normal (resolved.flatMap (·.2)))
  rw [hchained.apply_eq]
  exact hlinked

end Bundler
