import Bundler.Proofs.JavaScript.Calls
import Bundler.Proofs.JavaScript.Statements
import Bundler.Proofs.Rewrite

/-! The load calls of a program are its calls of `require`: each of them once and in order, also
one that the helper for default exports is called with. -/
namespace Bundler

open JavaScript

namespace JavaScript

variable {source : List Char}

/-! ### Calls that are handed on -/

/-- A call whose answer a named function is given first stands right behind the call of that
function. -/
def Lead : List CallSite → Prop
  | [] => True
  | c :: cs =>
    (∀ w inner, c.callee = some w → c.arguments.head? = some (.call inner) → cs.head? = some inner) ∧
      Lead cs

theorem Lead.append {xs ys : List CallSite} (hx : Lead xs) (hy : Lead ys) : Lead (xs ++ ys) := by
  induction xs with
  | nil => exact hy
  | cons x xs ih =>
    obtain ⟨hhead, hxs⟩ := hx
    rw [List.cons_append]
    refine ⟨fun w inner hw hinner => ?_, ih hxs⟩
    rw [List.head?_append, hhead w inner hw hinner, Option.some_or]

namespace Node

theorem site?_call {s : Span} {callee : Node} {args : List Node} :
    (call s callee args).site? source =
      some (.mk s callee.calleeName (argumentsOf source args) (Text.position source s.start).1) := rfl

theorem site?_tagged {s : Span} {tag t : Node} :
    (tagged s tag t).site? source =
      some (.mk s tag.calleeName [.other (Text.slice source t.span) t.span]
        (Text.position source s.start).1) := rfl

/-- The node of a call is the first call in it. -/
theorem head_calls {n : Node} {c : CallSite} (h : n.argument source = .call c) :
    (n.calls.filterMap (site? source)).head? = some c := by
  have hsite : n.site? source = some c := by rw [site?, h]
  cases n with
  | call s callee args | tagged s tag t =>
    rw [calls, List.filterMap_cons_some hsite, List.head?_cons]
  | template l parts =>
    rw [argument] at h
    split at h <;> cases h
  | _ => cases h

theorem calls_calleeName {n : Node} {w : Lexeme} (h : n.calleeName = some w) : n.calls = [] := by
  cases n <;> first | rfl | cases h

mutual

theorem calls_lead : ∀ n : Node, Lead (n.calls.filterMap (site? source))
  | call s callee args => by
    rw [calls, List.filterMap_cons_some site?_call, List.filterMap_append]
    refine ⟨fun w inner hw hinner => ?_, (calls_lead callee).append (callsOf_lead args)⟩
    rw [calls_calleeName hw]
    cases args with
    | nil => cases hinner
    | cons n ns =>
      have hhead := head_calls (Option.some.inj hinner)
      rw [callsOf, List.filterMap_append, List.filterMap_nil, List.nil_append, List.head?_append,
        hhead, Option.some_or]
  | tagged s tag t => by
    rw [calls, List.filterMap_cons_some site?_tagged, List.filterMap_append]
    refine ⟨fun w inner hw hinner => ?_, (calls_lead tag).append (calls_lead t)⟩
    cases hinner
  | template l parts | other s parts => callsOf_lead parts
  | name _ | string _ | importWord _ => trivial

theorem callsOf_lead : ∀ ns : List Node, Lead ((callsOf ns).filterMap (site? source))
  | [] => trivial
  | n :: ns => by
    rw [callsOf, List.filterMap_append]
    exact (calls_lead n).append (callsOf_lead ns)

end

end Node

theorem Program.callSites_lead (p : Program) : Lead (p.callSites source) := by
  rw [Program.callSites, Program.calls]
  induction p.body with
  | nil => trivial
  | cons s ss ih =>
    rw [List.flatMap_cons, List.filterMap_append]
    exact (Node.callsOf_lead s.parts).append ih

end JavaScript

namespace Rewrite

theorem loadCall?_of_calleeIs {c : CallSite} (h : c.calleeIs loader = true) :
    loadCall? c = some c := by
  rw [loadCall?, if_pos h]

/-- What a call of any other name stands for was handed to it. -/
theorem loadCall?_eq_some {c load : CallSite} (hc : ¬c.calleeIs loader = true)
    (h : loadCall? c = some load) :
    (∃ w, c.callee = some w) ∧ c.arguments.head? = some (.call load) ∧
      load.calleeIs loader = true := by
  rw [loadCall?, if_neg hc] at h
  split_ifs at h with hhelper
  have hcallee : ∃ w, c.callee = some w := by
    cases hw : c.callee with
    | none => simp [CallSite.calleeIs, hw] at hhelper
    | some w => exact ⟨w, rfl⟩
  split at h
  · rename_i inner hinner
    split_ifs at h with hload
    cases h
    exact ⟨hcallee, hinner, hload⟩
  · cases h

variable {calls : List CallSite} {seen : List Span}

/-- A call that is not there need not be looked for. -/
theorem filter_seen {s : Span} (h : ∀ c ∈ calls, s ≠ c.span) :
    (calls.filter fun c => c.calleeIs loader && !(s :: seen).contains c.span) =
      calls.filter fun c => c.calleeIs loader && !seen.contains c.span := by
  refine List.filter_congr fun c hc => ?_
  have hne : (c.span == s) = false := by simpa using (h c hc).symm
  rw [List.contains_cons, hne, Bool.false_or]

/-- Where a call that is handed on stands right behind the call it is handed to, and no two
calls have one span, every call of the loader is found, and found once. -/
theorem loadCalls_eq_filter (hlead : Lead calls)
    (hspan : calls.Pairwise fun c d => c.span ≠ d.span) :
    loadCalls seen calls = calls.filter fun c => c.calleeIs loader && !seen.contains c.span := by
  induction calls generalizing seen with
  | nil => rfl
  | cons c cs ih =>
    obtain ⟨hhead, hlead⟩ := hlead
    obtain ⟨hne, hspan⟩ := List.pairwise_cons.mp hspan
    by_cases hc : c.calleeIs loader = true
    · rw [loadCalls, loadCall?_of_calleeIs hc, List.filter_cons, hc, Bool.true_and]
      by_cases hseen : seen.contains c.span = true
      · simp only [hseen, if_true, Bool.not_true, Bool.false_eq_true, if_false]
        exact ih hlead hspan
      · simp only [hseen, Bool.false_eq_true, if_false, Bool.not_false, if_true]
        rw [ih hlead hspan, filter_seen hne]
    rw [loadCalls, List.filter_cons_of_neg (by simp [hc])]
    cases hload : loadCall? c with
    | none => exact ih hlead hspan
    | some load =>
      obtain ⟨⟨w, hw⟩, hargument, hloader⟩ := loadCall?_eq_some hc hload
      obtain ⟨rest, rfl⟩ := List.head?_eq_some_iff.mp (hhead w load hw hargument)
      by_cases hseen : seen.contains load.span = true
      · simp only [hseen, if_true]
        exact ih hlead hspan
      · have hnew : (load.calleeIs loader && !seen.contains load.span) = true := by
          rw [hloader, Bool.eq_false_iff.mpr hseen]
          rfl
        simp only [hseen, Bool.false_eq_true, if_false]
        rw [ih hlead hspan, List.filter_cons_of_neg (by simp),
          filter_seen (List.pairwise_cons.mp hspan).1, List.filter_cons, if_pos hnew]

/-- The load calls of a program are its calls of the loader. -/
theorem loadCalls_callSites {source : List Char} {p : Program} (h : p.Sound source) :
    loadCalls [] (p.callSites source) = (p.callSites source).filter (·.calleeIs loader) := by
  rw [loadCalls_eq_filter p.callSites_lead (h.callSites_pairwise.imp And.left)]
  simp

end Rewrite
end Bundler
