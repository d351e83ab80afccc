/-
Timers planned first and attached afterwards.

The think-time filter changes the tree while it goes through it: it puts timers
below nodes whose children it has still to visit, and it numbers samplers as it
meets them. The same tree comes about in two phases. First all samplers are
listed in the order of their paths, with nothing changed yet, and for each the
timer is chosen by the sampler's number and name. Then the timers are attached
one after another at the paths of the list.

What makes the two agree is that a timer goes behind the last child. No path in
the list leads through it, so every path of the list still leads where it led
(`Tree.element?_attach`), and a timer is no sampler, so the numbers are the same
(`foldl_grow_preorder`). This holds of every tree: samplers may stand below
samplers, and at the root.
-/
import LoadTest.Proofs.Filter.Timers
import LoadTest.Proofs.Tree.EditRun

set_option autoImplicit false

namespace LoadTest

open Traversal (under)

/-! ## Attaching at paths that are there -/

namespace Node

/-- Append a subtree to the node at a path. -/
def grow (n : Node) (v : Path × Node) : Node := n.modify (·.pushChild v.2) v.1

theorem foldl_grow_root (e : Element) (cs ts : List Node) :
    (ts.map fun c => (Path.root, c)).foldl grow (mk e cs) = mk e (cs ++ ts) := by
  induction ts generalizing cs with
  | nil => rw [List.map_nil, List.foldl_nil, List.append_nil]
  | cons c ts ih =>
    rw [List.map_cons, List.foldl_cons, List.append_cons]
    exact ih (cs ++ [c])

/-- What is appended below one child leaves the others as they are. -/
theorem foldl_grow_under (vs : List (Path × Node)) (e : Element) (front : List Node) (c : Node)
    (back : List Node) :
    (vs.map (under [front.length])).foldl grow (mk e (front ++ c :: back))
      = mk e (front ++ vs.foldl grow c :: back) := by
  induction vs generalizing c with
  | nil => rfl
  | cons v vs ih =>
    have hstep : grow (mk e (front ++ c :: back)) (under [front.length] v)
        = mk e (front ++ grow c v :: back) := by
      have hmodify : (front ++ c :: back).modify front.length (modify (·.pushChild v.2) v.1)
          = front ++ grow c v :: back := by
        rw [List.modify_eq_take_cons_drop (by simp)]
        simp [grow]
      exact congrArg (mk e) hmodify
    rw [List.map_cons, List.foldl_cons, hstep, ih, List.foldl_cons]

end Node

namespace Tree

/-- Whatever is found at a path is found there after a node has been attached. -/
theorem element?_attach {t : Tree} {p q : Path} {m : Node} {e : Element} (hm : t.get? p = some m)
    (hq : t.element? q = some e) (c : Node) : (t.modify p (·.pushChild c)).element? q = some e := by
  by_cases hbelow : ∃ j r, q = p ++ j :: r
  · obtain ⟨j, r, rfl⟩ := hbelow
    rw [element?_children hm] at hq
    have hj : j < m.children.length := by
      by_contra hge
      rw [List.getElem?_eq_none (by omega)] at hq
      cases hq
    have hsame := modify_congr (f := (·.pushChild c)) (g := fun _ => m.pushChild c) hm rfl
    rw [hsame, Node.pushChild, element?_withChildren hm, List.getElem?_append_left hj, hq]
  · rw [element?_modify hm rfl fun j r h => hbelow ⟨j, r, h⟩, hq]

/-- Attaching at paths that are there succeeds every time. -/
theorem run_attach (t : Tree) (vs : List (Path × Node))
    (hvs : ∀ v ∈ vs, (t.element? v.1).isSome = true) :
    Edit.run t (vs.map fun v => .attach v.1 (ofNode v.2))
      = (⟨vs.map Prod.snd, []⟩, ⟨t.root.map fun n => vs.foldl Node.grow n⟩) := by
  induction vs generalizing t with
  | nil =>
    obtain ⟨root⟩ := t
    rcases root with _ | n <;> rfl
  | cons v vs ih =>
    obtain ⟨hv, hvs⟩ := List.forall_mem_cons.mp hvs
    obtain ⟨m, hm⟩ : ∃ m, t.get? v.1 = some m := by
      rwa [element?, Option.isSome_map, Option.isSome_iff_exists] at hv
    have hstep : Edit.step t (.attach v.1 (ofNode v.2))
        = (⟨[v.2], []⟩, t.modify v.1 (·.pushChild v.2)) := by
      simp [Edit.step, attach, hm, ofNode]
    -- the other paths are still there
    have hrest := ih (t.modify v.1 (·.pushChild v.2)) fun u hu => by
      obtain ⟨e, he⟩ := Option.isSome_iff_exists.mp (hvs u hu)
      rw [element?_attach hm he]
      rfl
    have hroot : (t.modify v.1 (·.pushChild v.2)).root.map (fun n => vs.foldl Node.grow n)
        = t.root.map fun n => (v :: vs).foldl Node.grow n := by
      rw [modify, Option.map_map]
      rfl
    rw [List.map_cons, Edit.run, hstep]
    simp only [hrest, Ledger.append, hroot, List.singleton_append, List.map_cons, List.nil_append]

end Tree

namespace Filter

/-! ## The plan -/

section Plan

variable (fallback : Option ThinkTime) (d : ElementDefaults) (w : Workload)

/-- Whether a visit is that of a sampler. -/
def isSamplerVisit (v : Path × Node) : Bool := v.2.element.kind.isSampler

/-- The timers for the samplers among some visits, each with the path where it
belongs. The samplers are numbered from `k`, and the timer of a sampler is chosen
by its number and name. -/
def timerPlan (k : Nat) (visits : List (Path × Node)) : List (Path × Node) :=
  ((visits.filter isSamplerVisit).zipIdx k).filterMap fun v =>
    (pauseOf? fallback w v.2 v.1.2.element.name).map fun pause => (v.1.1, timer d pause)

/-- The timers of two stretches of a traversal, with the samplers of the second numbered
behind those of the first. -/
theorem timerPlan_append (k : Nat) (us vs : List (Path × Node)) :
    timerPlan fallback d w k (us ++ vs)
      = timerPlan fallback d w k us
        ++ timerPlan fallback d w (k + (us.filter isSamplerVisit).length) vs := by
  rw [timerPlan, List.filter_append, List.zipIdx_append, List.filterMap_append]
  rfl

theorem timerPlan_root (k : Nat) (e : Element) (cs : List Node) :
    timerPlan fallback d w k [([], .mk e cs)]
      = (dueTimers fallback d w k e).map fun c => (Path.root, c) := by
  rw [timerPlan, dueTimers]
  by_cases he : e.kind.isSampler = true
  · have hvisit : isSamplerVisit ([], .mk e cs) = true := he
    rw [List.filter_singleton, hvisit, if_pos he]
    rcases h : pauseOf? fallback w k e.name with _ | pause
    · simp [h]
    · simp [h, Path.root]
  · have hvisit : isSamplerVisit ([], .mk e cs) = false := Bool.eq_false_iff.mpr he
    rw [List.filter_singleton, hvisit, if_neg he]
    rfl

/-- The plan of a subtree is the same wherever the subtree stands. -/
theorem timerPlan_under (k : Nat) (p : Path) (vs : List (Path × Node)) :
    timerPlan fallback d w k (vs.map (under p))
      = (timerPlan fallback d w k vs).map (under p) := by
  have hvisit : isSamplerVisit ∘ under p = isSamplerVisit := rfl
  rw [timerPlan, timerPlan, List.filter_map, hvisit, List.zipIdx_map, List.filterMap_map,
    List.map_filterMap]
  -- neither the number nor the name of a sampler has changed
  refine congrArg (List.filterMap · _) (funext fun v => ?_)
  rw [Option.map_map]
  rfl

/-- A traversal meets as many samplers as there are. -/
theorem length_filter_preorder (n : Node) :
    (n.preorder.filter isSamplerVisit).length = samplerCount n := by
  induction n with
  | mk e cs ih =>
    have hforest : ∀ i, ((Node.forestPreorder i cs).filter isSamplerVisit).length
        = forestSamplers cs := by
      induction cs with
      | nil => exact fun _ => rfl
      | cons c cs ihcs =>
        intro i
        have hvisit : isSamplerVisit ∘ under [i] = isSamplerVisit := rfl
        rw [Node.forestPreorder, List.filter_append, List.length_append, List.filter_map, hvisit,
          List.length_map, ih c List.mem_cons_self,
          ihcs (fun c' hc' => ih c' (List.mem_cons_of_mem _ hc')), forestSamplers]
    rw [Node.preorder, ← List.singleton_append, List.filter_append, List.length_append, hforest,
      samplerCount, List.filter_singleton, ownSampler]
    rcases h : e.kind.isSampler with _ | _ <;> simp [isSamplerVisit, h]

/-! ## Carrying the plan out -/

/-- Carried out on a node, the plan leaves the node with its timers. The children
are dealt with from the left; those in front have theirs, and the node's own
timer stands behind them all. -/
theorem foldl_grow_preorder (n : Node) (k : Nat) :
    (timerPlan fallback d w k n.preorder).foldl Node.grow n = timedNode fallback d w k n := by
  induction n generalizing k with
  | mk e cs ih =>
    have hforest : ∀ k (front back : List Node),
        (timerPlan fallback d w k (Node.forestPreorder front.length cs)).foldl Node.grow
            (.mk e (front ++ (cs ++ back)))
          = .mk e (front ++ (timedForest fallback d w k cs ++ back)) := by
      induction cs with
      | nil => exact fun _ _ _ => rfl
      | cons c cs ihcs =>
        intro k front back
        have hlen : (((c.preorder).map (under [front.length])).filter isSamplerVisit).length
            = samplerCount c := by
          have hvisit : isSamplerVisit ∘ under [front.length] = isSamplerVisit := rfl
          rw [List.filter_map, hvisit, List.length_map, length_filter_preorder]
        have hrest := ihcs (fun c' hc' => ih c' (List.mem_cons_of_mem _ hc'))
          (k + samplerCount c) (front ++ [timedNode fallback d w k c]) back
        rw [List.length_append, List.length_singleton, List.append_assoc, List.append_assoc] at hrest
        rw [Node.forestPreorder, timerPlan_append, List.foldl_append, timerPlan_under,
          List.cons_append, Node.foldl_grow_under, ih c List.mem_cons_self, hlen]
        exact hrest
    have hown : ([(([] : Path), Node.mk e cs)].filter isSamplerVisit).length = ownSampler e := by
      rw [List.filter_singleton, ownSampler]
      rcases h : e.kind.isSampler with _ | _ <;> simp [isSamplerVisit, h]
    rw [Node.preorder, ← List.singleton_append, timerPlan_append, List.foldl_append,
      timerPlan_root, Node.foldl_grow_root, hown]
    exact hforest _ [] _

end Plan

/-! ## The choice of a timer -/

section Choice

variable (fallback : Option ThinkTime) (w : Workload)

/-- A request at another position, or with another name, is not the one meant. -/
theorem pauseOf?_by_name {k : Nat} {x : String}
    (h : ∀ q, w.requests[k]? = some q → q.id ≠ x) :
    pauseOf? fallback w k x = (w.thinkTimeFor x <|> fallback) := by
  have hnone : (w.requests[k]?.filter fun q => q.id == x) = none := by
    refine Option.filter_eq_none_iff.mpr fun q hq => ?_
    simpa using h q hq
  rw [pauseOf?, requestOf?, hnone, Workload.thinkTimeFor]
  rfl

/-- Where no two requests share a name, the position does not matter. -/
theorem pauseOf?_of_nodup (h : (w.requests.map Request.id).Nodup) (k : Nat) (x : String) :
    pauseOf? fallback w k x = (w.thinkTimeFor x <|> fallback) := by
  by_cases hk : ∃ q, w.requests[k]? = some q ∧ q.id = x
  · obtain ⟨q, hq, rfl⟩ := hk
    have hfirst : w.findRequest q.id = some q := by
      rcases hfind : w.findRequest q.id with _ | q'
      · have hmiss := List.find?_eq_none.mp hfind q (List.mem_of_getElem? hq)
        exact absurd (beq_self_eq_true q.id) hmiss
      · have hname : q'.id = q.id := by simpa using List.find?_some hfind
        rw [List.inj_on_of_nodup_map h (List.mem_of_find?_eq_some hfind)
          (List.mem_of_getElem? hq) hname]
    rw [pauseOf?, requestOf?_position hq, Workload.thinkTimeFor, hfirst]
  · exact pauseOf?_by_name fallback w fun q hq hx => hk ⟨q, hq, hx⟩

end Choice

/-! ## Two phases -/

/-- The visit that adds timers ends, however many levels it may go down beyond
those of the tree, and leaves what is left when the timers are chosen for the
samplers of the tree as it was and then attached at their paths; every one of
them is attached. The timer of a pause is a leaf that holds the pause in
milliseconds, cut down to what a property can hold. A sampler's timer follows the
request at its number if that has its name, and else the first request of the
name; where no two requests share a name, the name alone decides. -/
theorem thinkTime_in_two_phases (fallback : Option ThinkTime) (d : ElementDefaults) (w : Workload)
    (t : Tree) :
    let plan := timerPlan fallback d w 0 t.depthFirst
    let left := ((thinkTime fallback).apply d w t).value
    (∀ levels, t.height < levels →
      ∃ s, t.visitWithin levels (timerVisitor fallback d w) .start = some (left, s))
    ∧ Edit.run t (plan.map fun v => .attach v.1 (.ofNode v.2)) = (⟨plan.map Prod.snd, []⟩, left)
    ∧ (∀ pause, IsTimerOf d pause (timer d pause))
    ∧ (∀ k q, w.requests[k]? = some q →
      pauseOf? fallback w k q.id = (q.thinkTime <|> w.thinkTime <|> fallback))
    ∧ (∀ k x, (∀ q, w.requests[k]? = some q → q.id ≠ x) →
      pauseOf? fallback w k x = (w.requests.find? fun q => q.id == x).elim
        (w.thinkTime <|> fallback) fun q => (q.thinkTime <|> w.thinkTime <|> fallback))
    ∧ ((w.requests.map Request.id).Nodup →
      ∀ k x, pauseOf? fallback w k x = (w.thinkTimeFor x <|> fallback)) := by
  intro plan left
  have hleft : left = ⟨t.root.map (timedNode fallback d w 0)⟩ := value_thinkTime fallback d w t
  refine ⟨?_, ?_, isTimerOf_timer d, ?_, ?_, pauseOf?_of_nodup fallback w⟩
  · intro levels hlevels
    rw [hleft]
    obtain ⟨root⟩ := t
    rcases root with _ | n
    · exact ⟨.start, rfl⟩
    · obtain ⟨i, hvisit, -⟩ := node_timerVisitor fallback d w n hlevels Path.root 0 0 []
      refine ⟨⟨0 + samplerCount n, 0 + i,
        [] ++ List.replicate i (.created .gaussianRandomTimer)⟩, ?_⟩
      show ((timerVisitor fallback d w).node levels Path.root n ⟨0, 0, []⟩).map _ = _
      rw [hvisit]
      rfl
  · have hpaths : ∀ v ∈ plan, (t.element? v.1).isSome = true := by
      intro v hv
      obtain ⟨u, hu, hpause⟩ := List.mem_filterMap.mp hv
      obtain ⟨pause, -, rfl⟩ := Option.map_eq_some_iff.mp hpause
      have hvisit := (List.mem_filter.mp (List.fst_mem_of_mem_zipIdx hu)).1
      rw [Tree.element?, Tree.mem_depthFirst.mp hvisit]
      rfl
    rw [Tree.run_attach t plan hpaths, hleft]
    obtain ⟨root⟩ := t
    rcases root with _ | n
    · rfl
    · have hplan : plan = timerPlan fallback d w 0 n.preorder := by
        simp only [plan, Tree.depthFirst_eq, Option.elim_some]
      rw [hplan, Option.map_some, foldl_grow_preorder, Option.map_some]
  · intro k q hq
    exact pauseOf?_eq (requestOf?_position hq)
  · intro k x hx
    rw [pauseOf?_by_name fallback w hx, Workload.thinkTimeFor, Workload.findRequest]
    rcases h : w.requests.find? fun q => q.id == x with _ | q
    · rw [h]
      rfl
    · rw [h]
      simp only [Option.elim_some, Workload.thinkTimeOf]
      rcases q.thinkTime with _ | pause <;> rfl

/-- A sampler at the root has one sampler below it, and a group with two more.
Two requests are called `a`: the first two samplers follow one each, the third
stands at the position of another request and follows the first of its name, and
there is no request for the last. A pause of more milliseconds than a property can
hold is cut down. -/
theorem nested_samplers_are_timed :
    let sampler (name : String) (cs : List Node) : Node :=
      .mk ((Element.new .httpSampler).withName name) cs
    let waits (delay range : Int64) : Node := .leaf (((Element.new .gaussianRandomTimer).withProperty
      "ConstantTimer.delay" (.integer delay)).withProperty "RandomTimer.range" (.integer range))
    let request (id : String) (pause : Option ThinkTime) : Request := .http ⟨id, [], [], [], pause⟩
    let w : Workload :=
      ⟨"w", [request "a" (some ⟨1, 0⟩), request "a" (some ⟨2, 7⟩), request "b" none], none⟩
    let below (timers : Int64 → Int64 → List Node) : Node :=
      sampler "a" (sampler "a" (timers 2 7)
        :: .mk (.new .threadGroup) [sampler "a" (timers 1 0), sampler "c" (timers 9 0)]
        :: timers 1 0)
    let t := Tree.ofNode (below fun _ _ => [])
    let left := Tree.ofNode (below fun delay range => [waits delay range])
    let long : ThinkTime := ⟨9223372036854775808, 9223372036854775807⟩
    (∃ s, t.visitWithin 4 (timerVisitor (some ⟨9, 0⟩) .empty w) .start = some (left, s))
    ∧ (timer .empty long).element.property? "ConstantTimer.delay"
      = some (.integer 9223372036854775807)
    ∧ (timer .empty long).element.property? "RandomTimer.range"
      = some (.integer 9223372036854775807)
    ∧ w.requests[1]? = some (request "a" (some ⟨2, 7⟩))
    ∧ pauseOf? (some ⟨9, 0⟩) w 1 "a" = some ⟨2, 7⟩
    ∧ pauseOf? (some ⟨9, 0⟩) w 2 "a" = some ⟨1, 0⟩
    ∧ pauseOf? none ⟨"w", [request "b" (some ⟨3, 0⟩), request "a" none], none⟩ 1 "b"
      = some ⟨3, 0⟩ := by
  intro sampler waits request w below t left long
  obtain ⟨hends, hrun, htimer, hposition, hname, -⟩ :=
    thinkTime_in_two_phases (some ⟨9, 0⟩) .empty w t
  obtain ⟨-, -, -, -, -, hdistinct⟩ := thinkTime_in_two_phases none .empty
    ⟨"w", [request "b" (some ⟨3, 0⟩), request "a" none], none⟩ .empty
  have hleft : ((thinkTime (some ⟨9, 0⟩)).apply .empty w t).value = left := by
    simp only [Tree.depthFirst_eq] at hrun
    exact (congrArg Prod.snd hrun).symm
  rw [hleft] at hends
  -- the delay does not fit, and the range is the last that does
  have hdelay : HoldsMilliseconds long.mean (some (.integer 9223372036854775807)) :=
    ⟨_, rfl, fun h => absurd h (by decide), fun _ => rfl⟩
  have hrange : HoldsMilliseconds long.deviation (some (.integer 9223372036854775807)) :=
    ⟨_, rfl, fun _ => rfl, fun h => absurd h (by decide)⟩
  refine ⟨hends 4 (by decide), (htimer long).delay.unique hdelay,
    (htimer long).range.unique hrange, rfl, hposition 1 _ rfl, ?_, hdistinct (by decide) 1 "b"⟩
  exact hname 2 "a" fun q hq => by
    obtain rfl : request "b" none = q := by simpa [w] using hq
    decide

end Filter

end LoadTest
