/-!
# Schedules of a machine that reads a stream

A machine reads a stream that arrives in chunks. It is called into while it is idle, and polled while a call is under way: a
poll gets the call further, or finds that more has to arrive. Who drives it chooses how the stream is cut, what arrives when
and how often a call is polled in vain. Where a machine with a part of the stream behaves like one that has more of it
(`Lookahead`), all that is lost: a schedule that ends idle tells what every schedule of the same calls over the same stream
returns (`Lookahead.results_extend`), and two that end idle end alike (`Lookahead.results_eq`).
-/

universe u

namespace Schedule

variable {S Chunk Call Ret : Type u}

/-- What happens to a machine. -/
inductive Event (Chunk Call : Type u)
  | feed (chunks : List Chunk)
  | invoke (call : Call)
  | poll
  deriving Repr

structure Machine (S Chunk Call Ret : Type u) where
  feed : List Chunk → S → S
  invoke : Call → S → Option Ret × S
  poll : S → Option Ret × S
  /-- No call is under way. -/
  Idle : S → Prop
  /-- A poll gets the call under way further. -/
  Ready : S → Prop

/-- What arrives in a schedule. -/
def arrivals : List (Event Chunk Call) → List Chunk
  | [] => []
  | .feed chunks :: events => chunks ++ arrivals events
  | .invoke _ :: events => arrivals events
  | .poll :: events => arrivals events

/-- The calls of a schedule. -/
def calls : List (Event Chunk Call) → List Call
  | [] => []
  | .feed _ :: events => calls events
  | .invoke call :: events => call :: calls events
  | .poll :: events => calls events

theorem calls_append (events more : List (Event Chunk Call)) : calls (events ++ more) = calls events ++ calls more := by
  induction events with
  | nil => rfl
  | cons event events ih =>
      cases event with
      | feed chunks => exact ih
      | invoke call => rw [List.cons_append, calls, calls, ih, List.cons_append]
      | poll => exact ih

namespace Machine

variable (m : Machine S Chunk Call Ret)

def step (s : S) : Event Chunk Call → Option Ret × S
  | .feed chunks => (none, m.feed chunks s)
  | .invoke call => m.invoke call s
  | .poll => m.poll s

def run (s : S) (events : List (Event Chunk Call)) : S := events.foldl (fun s event => (m.step s event).2) s

/-- What the calls return in a schedule, in order. -/
def results (s : S) : List (Event Chunk Call) → List Ret
  | [] => []
  | event :: events => (m.step s event).1.toList ++ results (m.step s event).2 events

/-- A schedule that calls into the machine only while it is idle. -/
def Orderly (s : S) : List (Event Chunk Call) → Prop
  | [] => True
  | event :: events => (∀ call, event = .invoke call → m.Idle s) ∧ Orderly (m.step s event).2 events

theorem orderly_append (s : S) (events more : List (Event Chunk Call)) :
    m.Orderly s (events ++ more) ↔ m.Orderly s events ∧ m.Orderly (m.run s events) more := by
  induction events generalizing s with
  | nil => exact ⟨fun h => ⟨trivial, h⟩, And.right⟩
  | cons event events ih =>
      rw [List.cons_append, Orderly, Orderly, ih, and_assoc]
      rfl

theorem orderly_of_calls_eq_nil (s : S) {events : List (Event Chunk Call)} (h : calls events = []) : m.Orderly s events := by
  induction events generalizing s with
  | nil => trivial
  | cons event events ih =>
      refine ⟨?_, ?_⟩
      · rintro call rfl
        cases h
      · cases event with
        | feed chunks => exact ih _ h
        | invoke call => cases h
        | poll => exact ih _ h

theorem orderly_invoke {s : S} (hidle : m.Idle s) (call : Call) {events : List (Event Chunk Call)}
    (h : calls events = []) : m.Orderly s (.invoke call :: events) :=
  ⟨fun _ _ => hidle, m.orderly_of_calls_eq_nil _ h⟩

/-- A run in front of the whole stream, that never polls in vain: its calls, what they return and where it ends. -/
inductive Runs : S → List Call → List Ret → S → Prop
  | nil (s : S) : Runs s [] [] s
  | invoke {s : S} {call : Call} {calls : List Call} {rets : List Ret} {u : S} (hidle : m.Idle s)
      (hrest : Runs (m.invoke call s).2 calls rets u) : Runs s (call :: calls) ((m.invoke call s).1.toList ++ rets) u
  | poll {s : S} {calls : List Call} {rets : List Ret} {u : S} (hready : m.Ready s)
      (hrest : Runs (m.poll s).2 calls rets u) : Runs s calls ((m.poll s).1.toList ++ rets) u

end Machine

variable {m : Machine S Chunk Call Ret}

/-- `Ahead chunks s t`: what is to arrive as these chunks at `s` has arrived at `t`, and nothing else tells them apart. -/
structure Lookahead (m : Machine S Chunk Call Ret) (Ahead : List Chunk → S → S → Prop) : Prop where
  feed : ∀ {chunks more s t}, Ahead (chunks ++ more) s t → Ahead more (m.feed chunks s) t
  idle : ∀ {chunks s t}, Ahead chunks s t → m.Idle s → m.Idle t
  invoke : ∀ {chunks s t} call, Ahead chunks s t → m.Idle s →
    (m.invoke call s).1 = (m.invoke call t).1 ∧ Ahead chunks (m.invoke call s).2 (m.invoke call t).2
  ready : ∀ {chunks s t}, Ahead chunks s t → m.Ready s →
    m.Ready t ∧ (m.poll s).1 = (m.poll t).1 ∧ Ahead chunks (m.poll s).2 (m.poll t).2
  waits : ∀ {chunks s t}, Ahead chunks s t → ¬ m.Ready s → (m.poll s).1 = none ∧ Ahead chunks (m.poll s).2 t
  busy : ∀ {s}, m.Ready s → ¬ m.Idle s

/-- What one schedule returns is what the other, run from the same place, returns as far as its calls go. Where both end idle
after the same calls, they end at the same place. -/
theorem Machine.Runs.le (hbusy : ∀ {s}, m.Ready s → ¬ m.Idle s) {s u u' : S} {calls calls' : List Call}
    {rets rets' : List Ret} (h : m.Runs s calls rets u) (h' : m.Runs s calls' rets' u') (hcalls : calls <+: calls')
    (hidle' : m.Idle u') : rets <+: rets' ∧ (calls = calls' → m.Idle u → rets = rets' ∧ u = u') := by
  induction h generalizing calls' rets' with
  | nil s =>
      refine ⟨List.nil_prefix, ?_⟩
      rintro rfl hidle
      cases h' with
      | nil => exact ⟨rfl, rfl⟩
      | poll hready hrest => exact absurd hidle (hbusy hready)
  | @invoke s call calls rets u hidle hrest ih =>
      cases h' with
      | nil => exact absurd hcalls.length_le (Nat.not_succ_le_zero _)
      | poll hready hrest' => exact absurd hidle (hbusy hready)
      | @invoke _ call' _ _ _ _ hrest' =>
          obtain ⟨rfl, htail⟩ := List.cons_prefix_cons.mp hcalls
          obtain ⟨hrets, hend⟩ := ih hrest' htail
          refine ⟨(List.prefix_append_right_inj _).mpr hrets, fun hsame hidle => ?_⟩
          obtain ⟨rfl, rfl⟩ := hend (List.cons.inj hsame).2 hidle
          exact ⟨rfl, rfl⟩
  | @poll s calls rets u hready hrest ih =>
      cases h' with
      | nil => exact absurd hidle' (hbusy hready)
      | invoke hidle hrest' => exact absurd hidle (hbusy hready)
      | poll _ hrest' =>
          obtain ⟨hrets, hend⟩ := ih hrest' hcalls
          refine ⟨(List.prefix_append_right_inj _).mpr hrets, fun hsame hidle => ?_⟩
          obtain ⟨rfl, rfl⟩ := hend hsame hidle
          exact ⟨rfl, rfl⟩

namespace Lookahead

variable {Ahead : List Chunk → S → S → Prop}

/-- A schedule does what a run in front of the whole stream does. -/
theorem runs (h : Lookahead m Ahead) {events : List (Event Chunk Call)} {rest : List Chunk} {s t : S}
    (horderly : m.Orderly s events) (hahead : Ahead (arrivals events ++ rest) s t) :
    ∃ u, m.Runs t (calls events) (m.results s events) u ∧ Ahead rest (m.run s events) u := by
  induction events generalizing s t with
  | nil => exact ⟨t, .nil t, hahead⟩
  | cons event events ih =>
      obtain ⟨hcall, horderly⟩ := horderly
      cases event with
      | feed chunks =>
          rw [arrivals, List.append_assoc] at hahead
          exact ih horderly (h.feed hahead)
      | invoke call =>
          have hidle := hcall call rfl
          obtain ⟨hret, hnext⟩ := h.invoke call hahead hidle
          obtain ⟨u, hruns, hend⟩ := ih horderly hnext
          refine ⟨u, ?_, hend⟩
          rw [calls, Machine.results, Machine.step, hret]
          exact .invoke (h.idle hahead hidle) hruns
      | poll =>
          by_cases hready : m.Ready s
          · obtain ⟨hreadyt, hret, hnext⟩ := h.ready hahead hready
            obtain ⟨u, hruns, hend⟩ := ih horderly hnext
            refine ⟨u, ?_, hend⟩
            rw [calls, Machine.results, Machine.step, hret]
            exact .poll hreadyt hruns
          · obtain ⟨hret, hnext⟩ := h.waits hahead hready
            obtain ⟨u, hruns, hend⟩ := ih horderly hnext
            refine ⟨u, ?_, hend⟩
            rw [calls, Machine.results, Machine.step, hret]
            exact hruns

variable {s s' t : S} {events events' : List (Event Chunk Call)} {rest rest' : List Chunk}

theorem results_extend (h : Lookahead m Ahead) (horderly : m.Orderly s events) (horderly' : m.Orderly s' events')
    (hahead : Ahead (arrivals events ++ rest) s t) (hahead' : Ahead (arrivals events' ++ rest') s' t)
    (hcalls : calls events <+: calls events') (hidle' : m.Idle (m.run s' events')) :
    m.results s events <+: m.results s' events' := by
  obtain ⟨u, hruns, _⟩ := h.runs horderly hahead
  obtain ⟨u', hruns', hend'⟩ := h.runs horderly' hahead'
  exact (hruns.le h.busy hruns' hcalls (h.idle hend' hidle')).1

/-- Two such schedules of the same calls that are both idle in the end return the same and end at one place. -/
theorem results_eq (h : Lookahead m Ahead) (horderly : m.Orderly s events) (horderly' : m.Orderly s' events')
    (hahead : Ahead (arrivals events ++ rest) s t) (hahead' : Ahead (arrivals events' ++ rest') s' t)
    (hcalls : calls events = calls events') (hidle : m.Idle (m.run s events)) (hidle' : m.Idle (m.run s' events')) :
    m.results s events = m.results s' events' ∧
      ∃ u, Ahead rest (m.run s events) u ∧ Ahead rest' (m.run s' events') u := by
  obtain ⟨u, hruns, hend⟩ := h.runs horderly hahead
  obtain ⟨u', hruns', hend'⟩ := h.runs horderly' hahead'
  have hcallsle : calls events <+: calls events' := ⟨[], (List.append_nil _).trans hcalls⟩
  obtain ⟨hrets, rfl⟩ := (hruns.le h.busy hruns' hcallsle (h.idle hend' hidle')).2 hcalls (h.idle hend hidle)
  exact ⟨hrets, u, hend, hend'⟩

end Lookahead

end Schedule
