/-
The filters that a configuration can name.

Header defaults puts a header manager in front of the thread group's children.
Think time puts a timer below every sampler whose request has a pause. Result
collector puts a collector behind the root's children. None of them takes
anything away.
-/
import LoadTest.Filter.Basic
import LoadTest.Tree.Visit

set_option autoImplicit false

namespace LoadTest.Filter

/-- The filter that does nothing. -/
def identity : Filter where
  name := "identity"
  apply _ _ t := pure t

/-! ## Headers -/

/-- Headers in order, each name once. -/
abbrev Headers := OrderedMap String String

/-- The headers of a header manager. -/
def headersKey : String := "HeaderManager.headers"

/-- Insert a header manager as the first child of the scope. Nothing is done
without headers, and nothing to the empty tree. -/
def headerDefaults (headers : Headers) : Filter where
  name := "header_defaults"
  apply d _ t :=
    if headers.isEmpty then pure t
    else match scope? t with
      | none => pure t
      | some scope => do
        let e ← d.create .headerManager
        match t.insert scope 0 (.leaf (e.withProperty headersKey (.table headers.entries))) with
        | (.ok _, t') => pure t'
        | (.error err, t') => do
          Logged.event (.headerManagerRefused scope err)
          pure t'

/-! ## Think times -/

/-- The constant part of a timer's pause. -/
def delayKey : String := "ConstantTimer.delay"

/-- The random part of a timer's pause. -/
def rangeKey : String := "RandomTimer.range"

/-- Milliseconds as a property; what exceeds the range of a property is cut
down to its upper end. -/
def milliseconds (n : UInt64) : PropertyValue :=
  .integer (if n.toNat ≤ Int64.maxValue.toInt.toNat then Int64.ofNat n.toNat else Int64.maxValue)

/-- Write a pause onto a timer. -/
def applyPause (t : ThinkTime) (timer : Element) : Element :=
  timer.withProperties [(delayKey, milliseconds t.mean), (rangeKey, milliseconds t.deviation)]

/-- The delay and the range are written, and the other properties are left alone. -/
theorem property?_applyPause (t : ThinkTime) (timer : Element) (key : String) :
    (applyPause t timer).property? key
      = if rangeKey = key then some (milliseconds t.deviation)
        else if delayKey = key then some (milliseconds t.mean)
        else timer.property? key := by
  show ((timer.withProperty delayKey _).withProperty rangeKey _).property? key = _
  rw [Element.property?_withProperty, Element.property?_withProperty]

/-- The request of the sampler number `position` with a given name: the request
at that position if it bears the name, otherwise the first that does. -/
def requestOf? (w : Workload) (position : Nat) (name : String) : Option Request :=
  (w.requests[position]?.filter fun r => r.id == name) <|> w.findRequest name

/-- The pause of the sampler number `position` with a given name: that of its
request, else the workload's, else the filter's. -/
def pauseOf? (fallback : Option ThinkTime) (w : Workload) (position : Nat) (name : String) :
    Option ThinkTime :=
  (match requestOf? w position name with
    | some r => w.thinkTimeOf r
    | none => w.thinkTime) <|> fallback

/-- How far a visit has come: the samplers met, the timers added, and the journal
of what was created on the way. -/
structure TimerRun where
  samplers : Nat
  timers : Nat
  journal : Journal

/-- A visit that has met nothing. -/
def TimerRun.start : TimerRun := ⟨0, 0, []⟩

/-- Append a timer to a sampler that has a pause. -/
def timerVisitor (fallback : Option ThinkTime) (d : ElementDefaults) (w : Workload) :
    Visitor TimerRun := fun _ n s =>
  if n.element.kind.isSampler then
    match pauseOf? fallback w s.samplers n.element.name with
    | some pause =>
      let e := d.create .gaussianRandomTimer
      (n.pushChild (.leaf (applyPause pause e.value)),
        ⟨s.samplers + 1, s.timers + 1, s.journal ++ e.journal⟩)
    | none => (n, { s with samplers := s.samplers + 1 })
  else (n, s)

/-- Append a timer to every sampler that has a pause. -/
def thinkTime (fallback : Option ThinkTime) : Filter where
  name := "think_time"
  apply d w t :=
    match t.visit (timerVisitor fallback d w) .start with
    | none => pure t
    | some (t', s) => ⟨t', s.journal ++ [.event (.timersAdded s.timers)]⟩

/-! ## Results -/

/-- The file of a result collector. -/
def filenameKey : String := "filename"

/-- Name the file of a collector, if there is one. -/
def applyFilename (filename : Option String) (e : Element) : Element :=
  match filename with
  | some f => e.withProperty filenameKey (.text f)
  | none => e

@[simp] theorem kind_applyFilename (filename : Option String) (e : Element) :
    (applyFilename filename e).kind = e.kind := by
  cases filename <;> rfl

@[simp] theorem name_applyFilename (filename : Option String) (e : Element) :
    (applyFilename filename e).name = e.name := by
  cases filename <;> rfl

/-- A name is written as text. Without one the collector keeps the file that it
has, and the other properties are left alone in either case. -/
theorem property?_applyFilename (filename : Option String) (e : Element) (key : String) :
    (applyFilename filename e).property? key
      = if filenameKey = key then (filename.map .text).or (e.property? key)
        else e.property? key := by
  rcases filename with _ | f
  · exact (ite_self _).symm
  · exact e.property?_withProperty filenameKey key (.text f)

/-- Append a result collector to the root; nothing is done to the empty tree. -/
def resultCollector (filename : Option String) : Filter where
  name := "result_collector"
  apply d _ t :=
    if t.isEmpty then pure t
    else do
      let e ← d.create .resultCollector
      pure (t.modifyRoot (·.pushChild (.leaf (applyFilename filename e))))

end LoadTest.Filter
