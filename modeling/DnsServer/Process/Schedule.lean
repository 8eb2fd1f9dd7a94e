import DnsServer.Process.Machine

/-! Runs of a machine computed from a schedule. -/
namespace Process

section
variable {P : Platform} {Tid Mem : Type} [DecidableEq P.Address] [DecidableEq P.Lock]
  [DecidableEq Tid]

namespace State

/-- The answer to a request and the state it leaves, if the thread does not block. -/
def serve (answer : Mem → (op : P.Op) → Option (P.Reply op × Mem)) (t : Tid) (G : State P Tid Mem) :
    (call : P.Call) → Option (call.Reply × State P Tid Mem)
  | .connect a => some (⟨G.next, .client⟩,
      { (G.setConn G.next Conn.opened).setBacklog a (G.backlog a ++ [G.next]) with
        next := G.next + 1 })
  | .accept a =>
    match G.backlog a with
    | [] => none
    | c :: rest => some (⟨c, .server⟩, G.setBacklog a rest)
  | .send s bytes =>
    if (G.conns s.conn).closed s.side then none
    else some (true, G.setConn s.conn ((G.conns s.conn).push s.side.other bytes))
  | .recv s len =>
    match (G.conns s.conn).inbox s.side with
    | segment :: rest => some (some (segment.take len),
        G.setConn s.conn ((G.conns s.conn).pop s.side (leftover len segment rest)))
    | [] => if (G.conns s.conn).closed s.side.other then some (some [], G) else none
  | .close s => some ((), G.setConn s.conn ((G.conns s.conn).shut s.side))
  | .lock l => match G.locks l with
    | none => some ((), G.setLock l (some t))
    | some _ => none
  | .unlock l => some ((), G.setLock l none)
  | .act op => (answer G.mem op).map fun (r, m) => (r, { G with mem := m })

/-- The state after a step of the thread; a blocked thread leaves it as it is. -/
def advance (answer : Mem → (op : P.Op) → Option (P.Reply op × Mem)) (G : State P Tid Mem) (t : Tid) :
    State P Tid Mem :=
  match G.threads t with
  | .ret _ => G
  | .loop b body k => G.setThread t (Program.unroll b body k)
  | .call op k =>
    match G.serve answer t op with
    | none => G
    | some (r, G₁) => G₁.setThread t (k r)

def follow (answer : Mem → (op : P.Op) → Option (P.Reply op × Mem)) (schedule : List Tid)
    (G : State P Tid Mem) : State P Tid Mem :=
  schedule.foldl (advance answer) G

/-- Before each step of the schedule `check` holds. -/
def allows (answer : Mem → (op : P.Op) → Option (P.Reply op × Mem)) (check : Tid → State P Tid Mem → Bool) :
    List Tid → State P Tid Mem → Bool
  | [], _ => true
  | t :: schedule, G => check t G && allows answer check schedule (G.advance answer t)

/-- The mutex that the thread's next request asks for. -/
def asks (G : State P Tid Mem) (t : Tid) : Option P.Lock :=
  match G.threads t with
  | .call (.lock l) _ => some l
  | _ => none

end State

variable {answer : Mem → (op : P.Op) → Option (P.Reply op × Mem)} {action : Action P Tid Mem}

omit [DecidableEq Tid] in
theorem perform_of_serve {call : P.Call} {r : call.Reply} {G G₁ : State P Tid Mem}
    (sound : ∀ t m op r m₁, answer m op = some (r, m₁) → action t m op r m₁)
    (served : G.serve answer t call = some (r, G₁)) : Perform action t G call r G₁ := by
  cases call with
  | connect a =>
    cases served
    exact .connect
  | accept a =>
    simp only [State.serve] at served
    split at served
    · cases served
    · next waiting =>
      cases served
      exact .accept waiting
  | send s bytes =>
    simp only [State.serve] at served
    split at served
    · cases served
    · next able =>
      cases served
      exact .send (eq_false_of_ne_true able)
  | recv s len =>
    simp only [State.serve] at served
    split at served
    · next arrived =>
      cases served
      exact .recv arrived
    · next empty =>
      split at served
      · next gone =>
        cases served
        exact .ended empty gone
      · cases served
  | close s =>
    cases served
    exact .close
  | lock l =>
    simp only [State.serve] at served
    split at served
    · next free =>
      cases served
      exact .lock free
    · cases served
  | unlock l =>
    cases served
    exact .unlock
  | act op =>
    simp only [State.serve, Option.map_eq_some_iff] at served
    obtain ⟨⟨r, m⟩, answered, done⟩ := served
    cases done
    exact .act (sound t G.mem op r m answered)

theorem advance_step (sound : ∀ t m op r m₁, answer m op = some (r, m₁) → action t m op r m₁)
    (G : State P Tid Mem) (t : Tid) :
    G.advance answer t = G ∨ Step action t G (G.advance answer t) := by
  unfold State.advance
  split
  · exact .inl rfl
  · next at_ => exact .inr (.turn at_)
  · next at_ =>
    split
    · exact .inl rfl
    · next served => exact .inr (.call at_ (perform_of_serve sound served))

/-- What holds of the rest of the schedule at every step makes the steps ones of `R`. -/
theorem follow_steps {R : State P Tid Mem → State P Tid Mem → Prop} (Inv : List Tid → State P Tid Mem → Prop)
    (step : ∀ t schedule G, Inv (t :: schedule) G → Inv schedule (G.advance answer t) ∧
      (G.advance answer t = G ∨ R G (G.advance answer t)))
    {schedule : List Tid} (start : Inv schedule G) : Relation.ReflTransGen R G (G.follow answer schedule) := by
  induction schedule generalizing G with
  | nil => exact .refl
  | cons t schedule ih =>
    obtain ⟨later, same | moved⟩ := step t schedule G start
    · have rest := ih later
      rw [same] at rest
      rwa [State.follow, List.foldl_cons, same]
    · exact .head moved (ih later)

/-- A state computed by a schedule is reachable. -/
theorem reaches_follow (sound : ∀ t m op r m₁, answer m op = some (r, m₁) → action t m op r m₁)
    (schedule : List Tid) (G : State P Tid Mem) : Reaches action G (G.follow answer schedule) := by
  refine follow_steps (fun _ _ => True) (fun t _ G _ => ⟨trivial, ?_⟩) trivial
  exact (advance_step sound G t).imp_right fun moved => ⟨t, moved⟩

/-- So it is under a condition that is checked before each step of the schedule. -/
theorem reachesUnder_follow_allows {ok : Tid → State P Tid Mem → Prop} {check : Tid → State P Tid Mem → Bool}
    (sound : ∀ t m op r m₁, answer m op = some (r, m₁) → action t m op r m₁)
    (checked : ∀ t G, check t G = true → ok t G) {schedule : List Tid}
    (allowed : G.allows answer check schedule = true) :
    ReachesUnder action ok G (G.follow answer schedule) := by
  refine follow_steps (fun rest G => G.allows answer check rest = true) (fun t rest G allowed => ?_) allowed
  obtain ⟨here, later⟩ := Bool.and_eq_true_iff.mp allowed
  refine ⟨later, (advance_step sound G t).imp_right fun moved => ?_⟩
  exact ⟨t, checked t G here, moved⟩

omit [DecidableEq P.Address] [DecidableEq P.Lock] [DecidableEq Tid] in
theorem wants_of_asks {G : State P Tid Mem} (asked : G.asks t = some l) : Wants G t l := by
  unfold State.asks at asked
  split at asked
  · next at_ =>
    cases asked
    exact ⟨_, at_⟩
  · cases asked

end
end Process
