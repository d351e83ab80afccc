/-
Filters only add leaves.

`Node.Grown` says of two nodes that the second is the first with leaves put in:
the elements are the same, and among the children of the second stand those of
the first, each grown itself, in their order. What is put in is a header manager,
a timer or a collector without children, and it stands at the root, in a thread
group or in a sampler.

That last part is what makes the relation transitive. A filter could otherwise
add below what an earlier one has added, and such a node would be neither a node
of the input nor a leaf. The kinds that filters add and the kinds in which they
add are different, so an added leaf stays as it is.

The leaves can be taken out again (`Node.without`), and what is left is the node
that there was before the filters.
-/
import LoadTest.Proofs.Plan.Additions

set_option autoImplicit false

namespace LoadTest

namespace ElementKind

/-- The kinds of the elements that filters add. -/
def isAdded : ElementKind → Bool
  | headerManager | gaussianRandomTimer | resultCollector => true
  | _ => false

/-- The kinds of the elements below which they are added, the root apart. -/
def hasRoom : ElementKind → Bool
  | threadGroup | soapSampler | httpSampler => true
  | _ => false

/-- Nothing is added below what has been added. -/
theorem hasRoom_of_isAdded {k : ElementKind} (h : k.isAdded = true) : k.hasRoom = false := by
  revert h
  cases k <;> decide

/-- Timers may be added below samplers. -/
theorem hasRoom_of_isSampler {k : ElementKind} (h : k.isSampler = true) : k.hasRoom = true := by
  revert h
  cases k <;> decide

theorem mem_of_isAdded {k : ElementKind} (h : k.isAdded = true) :
    k ∈ [headerManager, gaussianRandomTimer, resultCollector] := by
  revert h
  cases k <;> decide

end ElementKind

namespace Node

/-! ## Growth -/

/-- The second list holds the first, each node changed as `grown` says, in the
same order; if there is room, with added leaves in between. -/
inductive Widened (grown : Node → Node → Prop) : Bool → List Node → List Node → Prop
  | nil {room : Bool} : Widened grown room [] []
  | keep {room : Bool} {c c' : Node} {cs cs' : List Node} (hc : grown c c')
    (hcs : Widened grown room cs cs') : Widened grown room (c :: cs) (c' :: cs')
  | add {e : Element} {cs cs' : List Node} (he : e.kind.isAdded = true)
    (hcs : Widened grown true cs cs') : Widened grown true cs (leaf e :: cs')

/-- The second node is the first with added leaves. At the root there is room for
them whatever its kind. -/
inductive Grown : Bool → Node → Node → Prop
  | mk {root : Bool} {e : Element} {cs cs' : List Node}
    (hcs : Widened (Grown false) (root || e.kind.hasRoom) cs cs') : Grown root (mk e cs) (mk e cs')

section Widened

variable {grown : Node → Node → Prop} {room : Bool}

theorem Widened.refl {cs : List Node} (hcs : ∀ c ∈ cs, grown c c) : Widened grown room cs cs := by
  induction cs with
  | nil => exact .nil
  | cons c cs ih =>
    exact .keep (hcs c List.mem_cons_self) (ih fun c' hc' => hcs c' (List.mem_cons_of_mem _ hc'))

theorem Widened.append {cs cs' ds ds' : List Node} (hcs : Widened grown room cs cs')
    (hds : Widened grown room ds ds') : Widened grown room (cs ++ ds) (cs' ++ ds') := by
  induction hcs with
  | nil => exact hds
  | keep hc _ ih => exact .keep hc (ih hds)
  | add he _ ih => exact .add he (ih hds)

/-- Where there is room, leaves of the added kinds may stand. -/
theorem Widened.added {ns : List Node} (hroom : room = true)
    (hns : ∀ n ∈ ns, ∃ e, n = leaf e ∧ e.kind.isAdded = true) : Widened grown room [] ns := by
  subst hroom
  induction ns with
  | nil => exact .nil
  | cons n ns ih =>
    obtain ⟨e, rfl, he⟩ := hns n List.mem_cons_self
    exact .add he (ih fun m hm => hns m (List.mem_cons_of_mem _ hm))

/-- One of the children may have grown while the others stay as they are. -/
theorem Widened.modify {cs : List Node} {i : Nat} {c : Node} {f : Node → Node}
    (hgrown : ∀ c ∈ cs, grown c c) (hc : cs[i]? = some c) (hf : grown c (f c)) :
    Widened grown room cs (cs.modify i f) := by
  induction cs generalizing i with
  | nil => cases hc
  | cons d ds ih =>
    have hds : ∀ c ∈ ds, grown c c := fun c' hc' => hgrown c' (List.mem_cons_of_mem _ hc')
    cases i with
    | zero =>
      obtain rfl : d = c := by simpa using hc
      exact .keep hf (.refl hds)
    | succ i => exact .keep (hgrown d List.mem_cons_self) (ih hds hc)

/-- One step after another, if the second step leaves added leaves alone. -/
theorem Widened.trans {as bs cs : List Node} {then_ both : Node → Node → Prop}
    (hab : Widened grown room as bs) (hbc : Widened then_ room bs cs)
    (hboth : ∀ b ∈ bs, ∀ a c, grown a b → then_ b c → both a c)
    (hleaf : ∀ e c, e.kind.isAdded = true → then_ (leaf e) c → c = leaf e) :
    Widened both room as cs := by
  induction hbc generalizing as with
  | nil =>
    cases hab
    exact .nil
  | @keep _ b c bs cs hbc _ ih =>
    have hboth' : ∀ b ∈ bs, ∀ a c, grown a b → then_ b c → both a c :=
      fun b' hb' => hboth b' (List.mem_cons_of_mem _ hb')
    cases hab with
    | keep hab has => exact .keep (hboth b List.mem_cons_self _ _ hab hbc) (ih has hboth')
    | add he has =>
      rw [hleaf _ _ he hbc]
      exact .add he (ih has hboth')
  | add he _ ih => exact .add he (ih hab hboth)

end Widened

theorem Grown.refl (root : Bool) (n : Node) : Grown root n n := by
  induction n generalizing root with
  | mk e cs ih => exact .mk (.refl fun c hc => ih c hc false)

/-- Below an added leaf, nothing is added: its kind has no room. -/
theorem Grown.eq_leaf {e : Element} {n : Node} (he : e.kind.isAdded = true)
    (h : Grown false (leaf e) n) : n = leaf e := by
  cases h with
  | mk hcs =>
    rw [ElementKind.hasRoom_of_isAdded he, Bool.or_false] at hcs
    cases hcs
    rfl

/-- What has grown twice has grown. The induction is on the node in the middle:
its children are those of the first step, or leaves that it has added. -/
theorem Grown.trans {root : Bool} {a b c : Node} (hab : Grown root a b) (hbc : Grown root b c) :
    Grown root a c := by
  induction b generalizing root a c with
  | mk e bs ih =>
    cases hab with
    | mk has =>
      cases hbc with
      | mk hcs =>
        refine .mk (has.trans hcs ?_ ?_)
        · intro b hb a c hab hbc
          exact ih b hb hab hbc
        · intro e' c he' h
          exact h.eq_leaf he'

/-- A node has grown if a node in it has. -/
theorem Grown.modify {root : Bool} {f : Node → Node} {p : Path} {n m : Node}
    (hm : get? p n = some m) (hf : Grown (root && p.isEmpty) m (f m)) :
    Grown root n (n.modify f p) := by
  induction p generalizing root n with
  | nil =>
    obtain rfl : n = m := by simpa using hm
    rw [List.isEmpty_nil, Bool.and_true] at hf
    exact hf
  | cons i p ih =>
    obtain ⟨e, cs⟩ := n
    rw [get?_cons, children_mk, Option.bind_eq_bind, Option.bind_eq_some_iff] at hm
    obtain ⟨c, hc, hm⟩ := hm
    rw [List.isEmpty_cons, Bool.and_false] at hf
    exact .mk (.modify (fun c _ => .refl false c) hc (ih hm hf))

/-! ## Taking leaves out -/

mutual
/-- The node without the subtrees at the chosen paths below it. -/
def without (drop : Path → Bool) : Node → Node
  | mk e cs => mk e (forestWithout (fun i p => drop (i :: p)) cs)

/-- Subtrees without the chosen ones among them; a choice is a number and a path
from there. -/
def forestWithout (drop : Nat → Path → Bool) : List Node → List Node
  | [] => []
  | n :: ns =>
    if drop 0 [] then forestWithout (fun i => drop (i + 1)) ns
    else without (drop 0) n :: forestWithout (fun i => drop (i + 1)) ns
end

/-- An added leaf. -/
def IsAdded (n : Node) : Prop := ∃ e, n = leaf e ∧ e.kind.isAdded = true

/-- The leaves that have been added to children can be found, given that they can
be found in each. -/
theorem exists_forestWithout {room : Bool} {cs cs' : List Node}
    (hcs : Widened (Grown false) room cs cs')
    (hfind : ∀ c' ∈ cs', ∀ c, Grown false c c' → ∃ drop : Path → Bool, drop [] = false
      ∧ (∀ p, drop p = true → ∃ m, c'.get? p = some m ∧ m.IsAdded) ∧ c'.without drop = c) :
    ∃ drop : Nat → Path → Bool,
      (∀ i p, drop i p = true → ∃ m, (cs'[i]? >>= get? p) = some m ∧ m.IsAdded)
      ∧ forestWithout drop cs' = cs := by
  induction hcs with
  | nil => exact ⟨fun _ _ => false, fun i p h => (nomatch h), rfl⟩
  | @keep _ c c' cs cs' hc _ ih =>
    -- the choice in the first child, and the choices in the others behind it
    obtain ⟨first, hkept, hfirst, rfl⟩ := hfind c' List.mem_cons_self c hc
    obtain ⟨rest, hrest, rfl⟩ := ih fun d hd => hfind d (List.mem_cons_of_mem _ hd)
    refine ⟨fun i p => i.casesOn (first p) fun i => rest i p, ?_, ?_⟩
    · intro i p h
      cases i with
      | zero => exact hfirst p h
      | succ i => exact hrest i p h
    · have hkept' : ¬ first [] = true := by
        rw [hkept]
        exact Bool.false_ne_true
      exact if_neg hkept'
  | @add e cs cs' he _ ih =>
    obtain ⟨rest, hrest, rfl⟩ := ih fun d hd => hfind d (List.mem_cons_of_mem _ hd)
    refine ⟨fun i p => i.casesOn p.isEmpty fun i => rest i p, ?_, ?_⟩
    · intro i p h
      cases i with
      | zero =>
        obtain rfl : p = [] := List.isEmpty_iff.mp h
        exact ⟨leaf e, rfl, e, rfl, he⟩
      | succ i => exact hrest i p h
    · exact if_pos rfl

/-- What has been added are leaves that can be taken out again. -/
theorem Grown.exists_without {root : Bool} {n n' : Node} (h : Grown root n n') :
    ∃ drop : Path → Bool, drop [] = false
      ∧ (∀ p, drop p = true → ∃ m, n'.get? p = some m ∧ m.IsAdded) ∧ n'.without drop = n := by
  induction n' generalizing root n with
  | mk e cs' ih =>
    cases h with
    | @mk _ _ cs _ hcs =>
      obtain ⟨drop, hdrop, hwithout⟩ := exists_forestWithout hcs fun c' hc' c hc => ih c' hc' hc
      refine ⟨fun p => p.casesOn false drop, rfl, ?_, ?_⟩
      · intro p hp
        cases p with
        | nil => cases hp
        | cons i p => exact hdrop i p hp
      · rw [without]
        exact congrArg (Node.mk e) hwithout

end Node

/-! ## Filters -/

namespace Plan

open LoadTest.Filter (timedNode timedForest dueTimers)
open Node (Grown Widened)

section Growth

variable (d : ElementDefaults) (w : Workload)

/-- A sampler has room for its timer. -/
theorem widened_dueTimers (fallback : Option ThinkTime) (root : Bool) (k : Nat) (e : Element) :
    Widened (Grown false) (root || e.kind.hasRoom) [] (dueTimers fallback d w k e) := by
  by_cases he : e.kind.isSampler = true
  · have hroom : (root || e.kind.hasRoom) = true := by
      rw [ElementKind.hasRoom_of_isSampler he, Bool.or_true]
    refine .added hroom ?_
    intro n hn
    obtain ⟨pause, rfl⟩ := Filter.exists_eq_timer fallback d w hn
    exact ⟨_, rfl, rfl⟩
  · rw [dueTimers, if_neg he]
    exact .nil

/-- The think-time filter only adds timers, and only below samplers. -/
theorem grown_timedNode (fallback : Option ThinkTime) (root : Bool) (k : Nat) (n : Node) :
    Grown root n (timedNode fallback d w k n) := by
  induction n generalizing root k with
  | mk e cs ih =>
    have hforest : ∀ k,
        Widened (Grown false) (root || e.kind.hasRoom) cs (timedForest fallback d w k cs) := by
      induction cs with
      | nil => exact fun _ => .nil
      | cons c cs ihcs =>
        intro k
        exact .keep (ih c List.mem_cons_self false k)
          (ihcs (fun c' hc' => ih c' (List.mem_cons_of_mem _ hc')) _)
    -- every child has grown where it was, and the timer goes behind them
    have happend := (hforest (k + Filter.ownSampler e)).append
      (widened_dueTimers d w fallback root k e)
    rw [List.append_nil] at happend
    rw [timedNode]
    exact .mk happend

/-- Whatever the filter, it adds leaves to the root or to nodes that have room. -/
theorem grown_filtered (spec : FilterSpec) (n : Node) : Grown true n (filtered d w spec n) := by
  rcases spec with _ | headers | fallback | filename
  · exact .refl true n
  · obtain ⟨m, hm, hscope⟩ := n.get?_scope
    refine Grown.modify hm ?_
    obtain ⟨e, cs⟩ := m
    have hroom : ((true && n.scope.isEmpty) || e.kind.hasRoom) = true := by
      rcases hscope with hroot | hgroup
      · rw [hroot]
        rfl
      · rw [show e.kind = .threadGroup from hgroup]
        exact Bool.or_true _
    have hadded : Widened (Grown false) ((true && n.scope.isEmpty) || e.kind.hasRoom) []
        (headerManagers d (.headerDefaults headers)) := by
      refine Widened.added hroom fun c hc => ?_
      obtain ⟨e', rfl, he', -⟩ := headerManagers_leaf d (.headerDefaults headers) c hc
      exact ⟨e', rfl, by rw [he']; rfl⟩
    exact .mk (hadded.append (.refl fun c _ => .refl false c))
  · exact grown_timedNode d w fallback true 0 n
  · obtain ⟨e, cs⟩ := n
    have hadded : Widened (Grown false) (true || e.kind.hasRoom) []
        (collectors d (.resultCollector filename)) := by
      refine Widened.added (Bool.true_or e.kind.hasRoom) fun c hc => ?_
      obtain ⟨e', rfl, he', -⟩ := collectors_leaf d (.resultCollector filename) c hc
      exact ⟨e', rfl, by rw [he']; rfl⟩
    have hkept : Widened (Grown false) (true || e.kind.hasRoom) cs cs :=
      .refl fun c _ => .refl false c
    have happend := hkept.append hadded
    rw [List.append_nil] at happend
    exact .mk happend

/-- What a step keeps, a chain keeps. -/
theorem grown_chain (specs : List FilterSpec) (n : Node) :
    Grown true n (specs.foldl (fun n spec => filtered d w spec n) n) := by
  induction specs generalizing n with
  | nil => exact .refl true n
  | cons spec specs ih => exact (grown_filtered d w spec n).trans (ih _)

end Growth

end Plan

/-- The tree without the subtrees at the chosen paths below its root. -/
def Tree.without (drop : Path → Bool) (t : Tree) : Tree := ⟨t.root.map (Node.without drop)⟩

namespace Plan

/-- No chain of configured filters loses, alters or reorders anything, whatever
the tree, the workload and the defaults. The empty tree stays empty and any other
keeps its root, in which leaves have been added; and if the leaves that have been
added are taken out, what is left is the tree that there was. -/
theorem chain_adds_leaves (d : ElementDefaults) (w : Workload) (specs : List FilterSpec)
    (t : Tree) :
    let t' := (Filter.chain (specs.map FilterSpec.build) d w t).value
    t'.isEmpty = t.isEmpty
    ∧ Option.Rel (Node.Grown true) t.root t'.root
    ∧ ∃ added : Path → Bool,
      (∀ p, added p = true → ∃ e, t'.get? p = some (.leaf e)
        ∧ e.kind ∈ [ElementKind.headerManager, .gaussianRandomTimer, .resultCollector])
      ∧ t'.without added = t := by
  intro t'
  have ht' : t' = ⟨t.root.map fun n => specs.foldl (fun n spec => filtered d w spec n) n⟩ :=
    value_chain_eq d w specs t
  clear_value t'
  subst ht'
  obtain ⟨root⟩ := t
  rcases root with _ | n
  · exact ⟨rfl, .none, fun _ => false, fun p h => (nomatch h), rfl⟩
  · have hgrown := grown_chain d w specs n
    obtain ⟨added, -, hadded, hwithout⟩ := hgrown.exists_without
    refine ⟨rfl, .some hgrown, added, ?_, ?_⟩
    · intro p hp
      obtain ⟨m, hm, e, rfl, he⟩ := hadded p hp
      exact ⟨e, hm, ElementKind.mem_of_isAdded he⟩
    · exact congrArg Tree.ofNode hwithout

end Plan

end LoadTest
