/-
What the think-time filter makes of a tree.

The filter is a visit that changes the nodes under its feet, with a bound on the
levels it may go down. Here the same is said without visit and bound, by
recursion over the tree: samplers are numbered as they are met, a sampler before
its children, and a sampler with a pause gets a timer behind its children
(`timedNode`). A timer is no sampler, so the visit passes over what it has added
and the added level is the only one the bound has to allow for
(`node_timerVisitor`).
-/
import LoadTest.Filter.Standard
import LoadTest.Proofs.Tree.Lookup
import Mathlib.Algebra.Ring.Nat

set_option autoImplicit false

namespace LoadTest

/-! ## Visits of lists -/

namespace Visitor

variable {σ : Type}

/-- Two stretches of children are visited one after the other. -/
theorem children_append {visit : Path → Node → σ → Option (Node × σ)} {p : Path} {i : Nat}
    {ms ns ms' ns' : List Node} {s s' s'' : σ}
    (hms : children visit p i ms s = some (ms', s'))
    (hns : children visit p (i + ms.length) ns s' = some (ns', s'')) :
    children visit p i (ms ++ ns) s = some (ms' ++ ns', s'') := by
  induction ms generalizing i s ms' with
  | nil =>
    rw [children, Option.some.injEq, Prod.mk.injEq] at hms
    rw [← hms.1, hms.2]
    exact hns
  | cons m ms ih =>
    rw [children] at hms
    rcases hm : visit (Path.child p i) m s with _ | ⟨m', t⟩
    · rw [hm] at hms
      cases hms
    · -- the first child is visited, and the visit goes on with the state it leaves
      rw [hm] at hms
      rcases hrest : children visit p (i + 1) ms t with _ | ⟨ms'', t'⟩
      · simp [hrest] at hms
      · simp only [hrest, Option.some.injEq, Prod.mk.injEq] at hms
        obtain ⟨rfl, rfl⟩ := hms
        rw [List.length_cons, ← Nat.add_assoc, Nat.add_right_comm] at hns
        rw [List.cons_append, children, hm]
        simp only [ih hrest hns, List.cons_append]

end Visitor

namespace Filter

/-! ## Pauses -/

section Pauses

variable {fallback : Option ThinkTime} {w : Workload} {q : Request} {k : Nat}

/-- A sampler that bears the name of the request at its position belongs to that
request. -/
theorem requestOf?_position (hq : w.requests[k]? = some q) : requestOf? w k q.id = some q := by
  rw [requestOf?, hq]
  simp

/-- The pause of the request that is found for a sampler, else the workload's,
else the filter's. -/
theorem pauseOf?_eq {name : String} (hq : requestOf? w k name = some q) :
    pauseOf? fallback w k name = (q.thinkTime <|> w.thinkTime <|> fallback) := by
  rw [pauseOf?, hq]
  dsimp only
  rw [Workload.thinkTimeOf]
  rcases q.thinkTime with _ | pause
  · rfl
  · rfl

end Pauses

/-! ## What a timer holds -/

/-- The property is a number of milliseconds, as far as it can be: the number
itself below `2 ^ 63`, and the greatest integer of a property from there on. -/
def HoldsMilliseconds (n : UInt64) (p : Option PropertyValue) : Prop :=
  ∃ v : Int64, p = some (.integer v)
    ∧ (n.toNat < 2 ^ 63 → v.toInt = n.toNat) ∧ (2 ^ 63 ≤ n.toNat → v = Int64.maxValue)

/-- The property that is written for a number of milliseconds holds it. -/
theorem holdsMilliseconds (n : UInt64) : HoldsMilliseconds n (some (milliseconds n)) := by
  have hmax : Int64.maxValue.toInt.toNat = 2 ^ 63 - 1 := rfl
  rw [milliseconds, hmax]
  by_cases h : n.toNat < 2 ^ 63
  · rw [if_pos (by omega)]
    exact ⟨_, rfl, fun _ => Int64.toInt_ofNat_of_lt h, fun h' => by omega⟩
  · rw [if_neg (by omega)]
    exact ⟨_, rfl, fun h' => absurd h' h, fun _ => rfl⟩

/-- Two properties hold the same number of milliseconds only if they are the same. -/
theorem HoldsMilliseconds.unique {n : UInt64} {p p' : Option PropertyValue}
    (h : HoldsMilliseconds n p) (h' : HoldsMilliseconds n p') : p = p' := by
  obtain ⟨v, rfl, hbelow, hbeyond⟩ := h
  obtain ⟨v', rfl, hbelow', hbeyond'⟩ := h'
  rcases Nat.lt_or_ge n.toNat (2 ^ 63) with hn | hn
  · rw [Int64.toInt_inj.mp ((hbelow hn).trans (hbelow' hn).symm)]
  · rw [hbeyond hn, hbeyond' hn]

/-- The node is the timer of a pause: a leaf that is as its kind is by default,
but holds the mean of the pause as its delay and the deviation as its range. -/
structure IsTimerOf (d : ElementDefaults) (pause : ThinkTime) (n : Node) : Prop where
  children : n.children = []
  kind : n.element.kind = .gaussianRandomTimer
  name : n.element.name = (d.newElement .gaussianRandomTimer).name
  delay : HoldsMilliseconds pause.mean (n.element.property? delayKey)
  range : HoldsMilliseconds pause.deviation (n.element.property? rangeKey)
  others : ∀ key, key ≠ delayKey → key ≠ rangeKey →
    n.element.property? key = (d.newElement .gaussianRandomTimer).property? key

/-! ## Timers by recursion -/

section Timers

variable (fallback : Option ThinkTime) (d : ElementDefaults) (w : Workload)

/-- The timer of a pause. -/
def timer (pause : ThinkTime) : Node :=
  .leaf (applyPause pause (d.newElement .gaussianRandomTimer))

/-- A timer holds its pause, and what a timer holds by default under the other keys. -/
theorem property?_timer (pause : ThinkTime) (key : String) :
    (timer d pause).element.property? key
      = if rangeKey = key then some (milliseconds pause.deviation)
        else if delayKey = key then some (milliseconds pause.mean)
        else (d.newElement .gaussianRandomTimer).property? key :=
  property?_applyPause pause _ key

/-- What is planted for a pause is a timer of that pause. -/
theorem isTimerOf_timer (pause : ThinkTime) : IsTimerOf d pause (timer d pause) where
  children := rfl
  kind := rfl
  name := rfl
  delay := by
    -- the range does not displace the delay
    have hkeys : rangeKey ≠ delayKey := by decide
    rw [property?_timer, if_neg hkeys, if_pos rfl]
    exact holdsMilliseconds pause.mean
  range := by
    rw [property?_timer, if_pos rfl]
    exact holdsMilliseconds pause.deviation
  others key hdelay hrange := by
    rw [property?_timer, if_neg (Ne.symm hrange), if_neg (Ne.symm hdelay)]

/-- The timers due at the node that is met after `k` samplers: one at a sampler
with a pause, none elsewhere. -/
def dueTimers (k : Nat) (e : Element) : List Node :=
  if e.kind.isSampler then ((pauseOf? fallback w k e.name).map (timer d)).toList else []

/-- The sampler that a node is itself. -/
def ownSampler (e : Element) : Nat := if e.kind.isSampler then 1 else 0

mutual
/-- The number of samplers in a node. -/
def samplerCount : Node → Nat
  | .mk e cs => ownSampler e + forestSamplers cs

/-- The number of samplers in subtrees. -/
def forestSamplers : List Node → Nat
  | [] => 0
  | n :: ns => samplerCount n + forestSamplers ns
end

mutual
/-- The node with its timers, `k` samplers having been met before it. -/
def timedNode (k : Nat) : Node → Node
  | .mk e cs => .mk e (timedForest (k + ownSampler e) cs ++ dueTimers fallback d w k e)

/-- Subtrees with their timers. -/
def timedForest (k : Nat) : List Node → List Node
  | [] => []
  | n :: ns => timedNode k n :: timedForest (k + samplerCount n) ns
end

theorem forestSamplers_append (ms ns : List Node) :
    forestSamplers (ms ++ ns) = forestSamplers ms + forestSamplers ns := by
  induction ms with
  | nil => rw [List.nil_append, forestSamplers, Nat.zero_add]
  | cons m ms ih => rw [List.cons_append, forestSamplers, forestSamplers, ih, Nat.add_assoc]

theorem forestSamplers_eq_zero_iff {ns : List Node} :
    forestSamplers ns = 0 ↔ ∀ n ∈ ns, samplerCount n = 0 := by
  induction ns with
  | nil => exact ⟨fun _ _ hn => absurd hn List.not_mem_nil, fun _ => rfl⟩
  | cons n ns ih => rw [forestSamplers, Nat.add_eq_zero_iff, ih, List.forall_mem_cons]

theorem forestSamplers_flatMap {α : Type} {f : α → List Node} (hf : ∀ a, forestSamplers (f a) = 0)
    (as : List α) : forestSamplers (as.flatMap f) = 0 := by
  induction as with
  | nil => rfl
  | cons a as ih => rw [List.flatMap_cons, forestSamplers_append, hf, ih]

theorem forestSamplers_reverse {ns : List Node} (hns : forestSamplers ns = 0) :
    forestSamplers ns.reverse = 0 := by
  rw [forestSamplers_eq_zero_iff] at hns ⊢
  intro n hn
  exact hns n (List.mem_reverse.mp hn)

theorem samplerCount_leaf {e : Element} (he : e.kind.isSampler = false) :
    samplerCount (.leaf e) = 0 := by
  rw [Node.leaf, samplerCount, ownSampler, he]
  rfl

/-- A stretch of children is timed by itself, but its samplers are numbered behind those
in front of it. -/
theorem timedForest_append (k : Nat) (ms ns : List Node) :
    timedForest fallback d w k (ms ++ ns)
      = timedForest fallback d w k ms
        ++ timedForest fallback d w (k + forestSamplers ms) ns := by
  induction ms generalizing k with
  | nil => rw [List.nil_append, timedForest, forestSamplers, Nat.add_zero, List.nil_append]
  | cons m ms ih =>
    rw [List.cons_append, timedForest, timedForest, forestSamplers, ih, Nat.add_assoc,
      List.cons_append]

/-- Above the samplers nothing changes but what is below. -/
theorem timedNode_of_not_sampler {e : Element} (he : e.kind.isSampler = false) (k : Nat)
    (cs : List Node) :
    timedNode fallback d w k (.mk e cs) = .mk e (timedForest fallback d w k cs) := by
  have he' : ¬ e.kind.isSampler = true := by
    rw [he]
    decide
  rw [timedNode, ownSampler, dueTimers, if_neg he', if_neg he', Nat.add_zero, List.append_nil]

/-- A node without samplers gets no timers. -/
theorem timedNode_of_samplerCount (k : Nat) (n : Node) (hn : samplerCount n = 0) :
    timedNode fallback d w k n = n := by
  induction n generalizing k with
  | mk e cs ih =>
    rw [samplerCount, Nat.add_eq_zero_iff] at hn
    obtain ⟨he, hcs⟩ := hn
    -- the number at which the children start does not matter: none of them uses it
    have hforest : ∀ k, timedForest fallback d w k cs = cs := by
      clear he
      induction cs with
      | nil => exact fun _ => rfl
      | cons c cs ihcs =>
        intro k
        rw [forestSamplers, Nat.add_eq_zero_iff] at hcs
        rw [timedForest, ih c List.mem_cons_self k hcs.1,
          ihcs (fun c' hc' => ih c' (List.mem_cons_of_mem _ hc')) hcs.2]
    have hsampler : ¬ e.kind.isSampler = true := by
      intro h
      rw [ownSampler, if_pos h] at he
      exact absurd he (by decide)
    rw [timedNode, hforest, dueTimers, if_neg hsampler, List.append_nil]

/-- Where there is no sampler, no timer is planted. -/
theorem timedForest_of_forestSamplers (k : Nat) (ns : List Node) (hns : forestSamplers ns = 0) :
    timedForest fallback d w k ns = ns := by
  induction ns generalizing k with
  | nil => rfl
  | cons n ns ih =>
    rw [forestSamplers, Nat.add_eq_zero_iff] at hns
    rw [timedForest, timedNode_of_samplerCount fallback d w k n hns.1, ih _ hns.2]

/-- What is due at a node is a timer. -/
theorem exists_eq_timer {k : Nat} {e : Element} {n : Node}
    (hn : n ∈ dueTimers fallback d w k e) : ∃ pause, n = timer d pause := by
  rw [dueTimers] at hn
  by_cases he : e.kind.isSampler = true
  · rw [if_pos he] at hn
    obtain ⟨pause, -, rfl⟩ := Option.map_eq_some_iff.mp (Option.mem_toList.mp hn)
    exact ⟨pause, rfl⟩
  · rw [if_neg he] at hn
    exact absurd hn List.not_mem_nil

/-- Timers are planted below the children, not among them. -/
theorem length_timedForest (k : Nat) (ns : List Node) :
    (timedForest fallback d w k ns).length = ns.length := by
  induction ns generalizing k with
  | nil => rfl
  | cons n ns ih => rw [timedForest, List.length_cons, ih, List.length_cons]

/-- A subtree starts with the number of the samplers in front of it. -/
theorem getElem?_timedForest (k : Nat) (ns : List Node) (i : Nat) :
    (timedForest fallback d w k ns)[i]?
      = ns[i]?.map (timedNode fallback d w (k + forestSamplers (ns.take i))) := by
  induction ns generalizing k i with
  | nil => rfl
  | cons n ns ih =>
    cases i with
    | zero => rfl
    | succ i =>
      rw [timedForest, List.getElem?_cons_succ, List.getElem?_cons_succ, ih, List.take_succ_cons,
        forestSamplers, Nat.add_assoc]

/-! ## The visit -/

/-- The visit of a node adds what is due at it, and notes one creation for each
timer that it has added. -/
theorem timerVisitor_mk (p : Path) (e : Element) (cs : List Node) (k j : Nat) (log : Journal) :
    timerVisitor fallback d w p (.mk e cs) ⟨k, j, log⟩
      = (.mk e (cs ++ dueTimers fallback d w k e),
        ⟨k + ownSampler e, j + (dueTimers fallback d w k e).length,
          log ++ List.replicate (dueTimers fallback d w k e).length
            (.created .gaussianRandomTimer)⟩) := by
  rw [timerVisitor, dueTimers, ownSampler, Node.element_mk]
  by_cases he : e.kind.isSampler = true
  · rw [if_pos he, if_pos he, if_pos he]
    rcases pauseOf? fallback w k e.name with _ | pause
    · simp
    · rfl
  · rw [if_neg he, if_neg he, if_neg he, List.append_nil, List.length_nil, List.replicate_zero,
      List.append_nil]
    rfl

/-- The visit passes over the timers that it has added. -/
theorem children_dueTimers {levels : Nat} (hl : 0 < levels) (p : Path) (i k : Nat) (e : Element)
    (s : TimerRun) :
    Visitor.children ((timerVisitor fallback d w).node levels) p i (dueTimers fallback d w k e) s
      = some (dueTimers fallback d w k e, s) := by
  obtain ⟨l, rfl⟩ : ∃ l, levels = l + 1 := ⟨levels - 1, by omega⟩
  rw [dueTimers]
  by_cases he : e.kind.isSampler = true
  · rw [if_pos he]
    rcases pauseOf? fallback w k e.name with _ | pause
    · rfl
    · rfl
  · rw [if_neg he]
    rfl

/-- The visit of subtrees, from the visits of each. -/
theorem children_timerVisitor {levels : Nat} {cs : List Node}
    (hcs : ∀ c ∈ cs, ∀ (p : Path) (k j : Nat) (log : Journal),
      ∃ i, (timerVisitor fallback d w).node levels p c ⟨k, j, log⟩
          = some (timedNode fallback d w k c, ⟨k + samplerCount c, j + i,
            log ++ List.replicate i (.created .gaussianRandomTimer)⟩)
        ∧ (timedNode fallback d w k c).nodeCount = c.nodeCount + i)
    (p : Path) (n k j : Nat) (log : Journal) :
    ∃ i, Visitor.children ((timerVisitor fallback d w).node levels) p n cs ⟨k, j, log⟩
        = some (timedForest fallback d w k cs, ⟨k + forestSamplers cs, j + i,
          log ++ List.replicate i (.created .gaussianRandomTimer)⟩)
      ∧ Node.forestCount (timedForest fallback d w k cs) = Node.forestCount cs + i := by
  induction cs generalizing n k j log with
  | nil =>
    refine ⟨0, ?_, rfl⟩
    rw [List.replicate_zero, List.append_nil]
    rfl
  | cons c cs ih =>
    -- the rest is visited with the state that the first child leaves
    obtain ⟨i, hc, hcount⟩ := hcs c List.mem_cons_self (p.child n) k j log
    obtain ⟨i', hrest, hrestcount⟩ :=
      ih (fun c' hc' => hcs c' (List.mem_cons_of_mem _ hc')) (n + 1) (k + samplerCount c) (j + i)
        (log ++ List.replicate i (.created .gaussianRandomTimer))
    refine ⟨i + i', ?_, ?_⟩
    · rw [Visitor.children, hc]
      simp only [hrest, timedForest, forestSamplers, Nat.add_assoc, List.append_assoc,
        List.replicate_append_replicate]
    · rw [Node.forestCount, timedForest, Node.forestCount]
      omega

/-- With one level to spare the visit ends. It leaves the node with its timers and
has counted the samplers. As many timers have been counted as there are new nodes,
and as many have been created on the way. -/
theorem node_timerVisitor (n : Node) {levels : Nat} (hl : n.height < levels) (p : Path)
    (k j : Nat) (log : Journal) :
    ∃ i, (timerVisitor fallback d w).node levels p n ⟨k, j, log⟩
        = some (timedNode fallback d w k n, ⟨k + samplerCount n, j + i,
          log ++ List.replicate i (.created .gaussianRandomTimer)⟩)
      ∧ (timedNode fallback d w k n).nodeCount = n.nodeCount + i := by
  induction n generalizing levels p k j log with
  | mk e cs ih =>
    obtain ⟨l, rfl⟩ : ∃ l, levels = l + 1 := ⟨levels - 1, by omega⟩
    rw [Node.height] at hl
    have hbelow : ∀ c ∈ cs, c.height < l := by
      intro c hc
      have h := Node.height_le_of_mem hc
      omega
    -- the node's own timer is added first, and stands behind the children when they are visited
    obtain ⟨i, hcs, hcount⟩ := children_timerVisitor fallback d w
      (fun c hc p k j log => ih c hc (hbelow c hc) p k j log) p 0 (k + ownSampler e)
      (j + (dueTimers fallback d w k e).length)
      (log ++ List.replicate (dueTimers fallback d w k e).length (.created .gaussianRandomTimer))
    have hl₀ : 0 < l := by omega
    have htimers := children_dueTimers fallback d w hl₀ p (0 + cs.length) k e
      ⟨k + ownSampler e + forestSamplers cs, j + (dueTimers fallback d w k e).length + i,
        log ++ List.replicate (dueTimers fallback d w k e).length (.created .gaussianRandomTimer)
          ++ List.replicate i (.created .gaussianRandomTimer)⟩
    refine ⟨(dueTimers fallback d w k e).length + i, ?_, ?_⟩
    · rw [Visitor.node, timerVisitor_mk]
      simp only [Node.children_mk, Visitor.children_append hcs htimers, Node.withChildren,
        Node.element_mk, timedNode, samplerCount, Nat.add_assoc, List.append_assoc,
        List.replicate_append_replicate]
    · -- a timer is one node, so counting timers is counting nodes
      have hdue : Node.forestCount (dueTimers fallback d w k e)
          = (dueTimers fallback d w k e).length := by
        rw [dueTimers]
        by_cases he : e.kind.isSampler = true
        · rw [if_pos he]
          rcases pauseOf? fallback w k e.name with _ | pause <;> rfl
        · rw [if_neg he]
          rfl
      rw [timedNode, Node.nodeCount, Node.nodeCount, Node.forestCount_append, hdue]
      omega

/-- The visit of a tree ends. It has counted as many timers as nodes are new, and
has created one for each of them. -/
theorem visit_timerVisitor (t : Tree) :
    ∃ k i, t.visit (timerVisitor fallback d w) .start
        = some (⟨t.root.map (timedNode fallback d w 0)⟩,
          ⟨k, i, List.replicate i (.created .gaussianRandomTimer)⟩)
      ∧ Tree.nodeCount ⟨t.root.map (timedNode fallback d w 0)⟩ = t.nodeCount + i := by
  obtain ⟨root⟩ := t
  rcases root with _ | n
  · exact ⟨0, 0, rfl, rfl⟩
  · have hl : n.height < n.nodeCount + 1 := Nat.lt_succ_of_le n.height_le_nodeCount
    obtain ⟨i, hvisit, hcount⟩ := node_timerVisitor fallback d w n hl Path.root 0 0 []
    rw [Nat.zero_add, Nat.zero_add, List.nil_append] at hvisit
    refine ⟨samplerCount n, i, ?_, hcount⟩
    show ((timerVisitor fallback d w).node (n.nodeCount + 1) Path.root n ⟨0, 0, []⟩).map _ = _
    rw [hvisit]
    rfl

/-- What the think-time filter makes of a tree. -/
theorem value_thinkTime (t : Tree) :
    ((thinkTime fallback).apply d w t).value = ⟨t.root.map (timedNode fallback d w 0)⟩ := by
  obtain ⟨k, i, hvisit, -⟩ := visit_timerVisitor fallback d w t
  simp only [thinkTime, hvisit]

/-- What has been created on the way is what has been added: one timer for every
new node. Their number is told at the end. -/
theorem journal_thinkTime (t : Tree) :
    ∃ j, ((thinkTime fallback).apply d w t).value.nodeCount = t.nodeCount + j
      ∧ ((thinkTime fallback).apply d w t).journal
        = List.replicate j (.created .gaussianRandomTimer) ++ [.event (.timersAdded j)] := by
  obtain ⟨k, i, hvisit, hcount⟩ := visit_timerVisitor fallback d w t
  refine ⟨i, ?_, ?_⟩
  · rw [value_thinkTime, hcount]
  · simp only [thinkTime, hvisit]

end Timers

end Filter

end LoadTest
