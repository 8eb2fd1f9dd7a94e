import DnsServer.Scoreboard.Requests

/-! Requests, servers and answers at once: the generator forwards a request before it enters it,
so that its answer may be faster. -/
namespace DnsServer
variable {Time : Type}

structure Answer where
  id : UInt16
  validTrans : UInt8
  deriving DecidableEq

/-- `sending` is the request that the generator has forwarded and is yet to enter, with its server
and its time; `queries` and `answers` are on their way; `recieved` is the answer at which the
response thread is at work. `issued` and `answered` are all the ids forwarded and received so far. -/
structure Traffic (Time : Type) where
  sending : Option (UInt16 × UInt8 × Time)
  queries : List UInt16
  answers : List Answer
  recieved : Option Answer
  scoreboard : Scoreboard Time
  issued : List UInt16
  answered : List UInt16

def noTraffic : Traffic Time := ⟨none, [], [], none, createScoreboard, [], []⟩

inductive TrafficEvent (Time : Type) where
  /-- `send_to_router` as far as the call of `forward_request`. -/
  | forward (id : UInt16) (dnsId : UInt8) (requestTime : Time)
  /-- The rest of `send_to_router`. -/
  | enter
  | answer (id : UInt16) (validTrans : UInt8)
  | recieve (a : Answer)
  | score (elapsedTime : Time)
  deriving DecidableEq

/-- No datagram is lost, and no id comes twice. -/
def TrafficEvent.apply [Zero Time] (T : Traffic Time) : TrafficEvent Time → Option (Traffic Time)
  | .forward id dnsId requestTime =>
    if T.sending.isNone ∧ id ∉ T.issued then
      some { T with
        sending := some (id, dnsId, requestTime)
        queries := T.queries ++ [id]
        issued := id :: T.issued }
    else none
  | .enter =>
    T.sending.map fun (id, dnsId, requestTime) => { T with
      sending := none
      scoreboard := (recieveGeneratedReq T.scoreboard id dnsId 0 requestTime).2 }
  | .answer id validTrans =>
    if id ∈ T.queries then
      some { T with queries := T.queries.erase id, answers := T.answers ++ [⟨id, validTrans⟩] }
    else none
  | .recieve a =>
    if T.recieved.isNone ∧ a ∈ T.answers then
      some { T with answers := T.answers.erase a, recieved := some a, answered := a.id :: T.answered }
    else none
  | .score elapsedTime =>
    T.recieved.map fun a => { T with
      recieved := none
      scoreboard := (recieveDnsAnswer T.scoreboard a.id a.validTrans elapsedTime).2 }

/-- An answer is scored when its request has been entered and the queue is within its cap. -/
def TrafficEvent.Meets (T : Traffic Time) : TrafficEvent Time → Prop
  | .score _ => ∀ a ∈ T.recieved, (∀ s ∈ T.sending, s.1 ≠ a.id) ∧ T.scoreboard.queue.length ≤ 0xFFFF
  | _ => True

/-- When the scoreboard is destroyed between two turns of its thread, every answer received so far
is in its rows. -/
def NoAnswerLost (T : Traffic Time) : Prop :=
  T.recieved = none → ∀ id ∈ T.answered,
    ∃ r ∈ (destroyScoreboard T.scoreboard).written, r.id = id ∧ r.recieved = 1

/-- The runs from no traffic in which every step meets its condition. -/
inductive TimelyRun [Zero Time] : Traffic Time → Prop where
  | start : TimelyRun noTraffic
  | step {e : TrafficEvent Time} : TimelyRun T → e.Meets T → e.apply T = some T₁ → TimelyRun T₁

/-- What the ids of the requests tell in such a run. -/
structure Booked (T : Traffic Time) : Prop where
  entered : ∀ id ∈ T.issued, (∃ s ∈ T.sending, s.1 = id) ∨ ∃ r ∈ T.scoreboard.rows, r.id = id
  once : (T.queries ++ (T.answers.map Answer.id ++ T.answered)).Nodup
  known : ∀ id ∈ T.queries ++ (T.answers.map Answer.id ++ T.answered), id ∈ T.issued
  working : ∀ a ∈ T.recieved, a.id ∈ T.answered
  waits : ∀ r ∈ T.scoreboard.rows, r.recieved ≠ 0 → r.id ∈ T.answered ∧ ∀ a ∈ T.recieved, a.id ≠ r.id
  flushed : ∀ r ∈ T.scoreboard.written, r.recieved ≠ 0
  scored : ∀ id ∈ T.answered, (∃ a ∈ T.recieved, a.id = id) ∨ ∃ r ∈ T.scoreboard.rows, r.id = id ∧ r.recieved = 1

/-- Within the cap only answered requests are written out. -/
theorem writeAnswered_written (written queue : List (Results Time)) (capped : queue.length ≤ 0xFFFF) :
    ∀ r ∈ (writeAnswered written queue).written, r ∈ written ∨ r.recieved ≠ 0 := by
  induction queue generalizing written with
  | nil =>
    intro r member
    exact .inl member
  | cons front rest ih =>
    rw [List.length_cons] at capped
    intro r member
    rw [writeAnswered] at member
    split at member
    · next goes =>
      have answered := goes.resolve_right (Nat.not_lt_of_le capped)
      rcases ih _ (by omega) r member with before | done
      · rcases List.mem_append.mp before with before | here
        · exact .inl before
        · rw [List.mem_singleton.mp here]
          exact .inr answered
      · exact .inr done
    · exact .inl member

theorem noTraffic_booked : Booked (noTraffic : Traffic Time) := by
  constructor
  case once => exact List.nodup_nil
  all_goals rintro _ ⟨⟩

section
variable [Zero Time] {T T₁ : Traffic Time} {id : UInt16} {t : Time}

theorem Booked.forward (booked : Booked T) (applied : (TrafficEvent.forward id dnsId t).apply T = some T₁) :
    Booked T₁ := by
  simp only [TrafficEvent.apply] at applied
  split at applied
  · next free =>
    cases applied
    obtain ⟨idle, new⟩ := free
    have unseen : id ∉ T.queries ++ (T.answers.map Answer.id ++ T.answered) := fun old => new (booked.known id old)
    constructor
    case entered =>
      intro id' issued
      rcases List.mem_cons.mp issued with rfl | before
      · exact .inl ⟨_, rfl, rfl⟩
      · rcases booked.entered id' before with ⟨s, sending, _⟩ | row
        · rw [Option.isNone_iff_eq_none.mp idle] at sending
          cases sending
        · exact .inr row
    case once =>
      rw [List.append_assoc, List.singleton_append]
      exact (List.perm_middle.nodup_iff).mpr (List.nodup_cons.mpr ⟨unseen, booked.once⟩)
    case known =>
      intro id' member
      rw [List.append_assoc, List.singleton_append] at member
      rcases List.mem_cons.mp (List.perm_middle.subset member) with rfl | before
      · exact List.mem_cons_self
      · exact List.mem_cons_of_mem _ (booked.known id' before)
    case working => exact booked.working
    case waits => exact booked.waits
    case flushed => exact booked.flushed
    case scored => exact booked.scored
  · cases applied

theorem Booked.enter (booked : Booked T) (applied : TrafficEvent.enter.apply T = some T₁) : Booked T₁ := by
  obtain ⟨⟨id, dnsId, t⟩, sending, rfl⟩ := Option.map_eq_some_iff.mp applied
  have rows : (recieveGeneratedReq T.scoreboard id dnsId 0 t).2.rows =
      T.scoreboard.rows ++ [⟨t, id, dnsId, 0, 0, 0, 0⟩] := by
    simp [recieveGeneratedReq, Scoreboard.rows]
  constructor
  case entered =>
    intro id' issued
    right
    simp only [rows]
    rcases booked.entered id' issued with ⟨s, other, rfl⟩ | ⟨r, row, mine⟩
    · cases sending.symm.trans other
      exact ⟨_, List.mem_append_right _ (List.mem_singleton_self _), rfl⟩
    · exact ⟨r, List.mem_append_left _ row, mine⟩
  case once => exact booked.once
  case known => exact booked.known
  case working => exact booked.working
  case waits =>
    simp only [rows]
    intro r row done
    rcases List.mem_append.mp row with before | new
    · exact booked.waits r before done
    · rw [List.mem_singleton.mp new] at done
      exact absurd rfl done
  case flushed => exact booked.flushed
  case scored =>
    intro id' answered
    simp only [rows]
    refine (booked.scored id' answered).imp_right ?_
    rintro ⟨r, row, mine⟩
    exact ⟨r, List.mem_append_left _ row, mine⟩

theorem Booked.answer (booked : Booked T) (applied : (TrafficEvent.answer id v).apply T = some T₁) :
    Booked T₁ := by
  simp only [TrafficEvent.apply] at applied
  split at applied
  · next queried =>
    cases applied
    have moved : (T.queries.erase id ++ ((T.answers ++ [(⟨id, v⟩ : Answer)]).map Answer.id ++ T.answered)).Perm
        (T.queries ++ (T.answers.map Answer.id ++ T.answered)) := by
      rw [List.map_append, List.append_assoc, List.map_singleton, List.singleton_append]
      refine (List.Perm.append_left _ List.perm_middle).trans (List.perm_middle.trans ?_)
      rw [← List.cons_append]
      exact (List.perm_cons_erase queried).symm.append_right _
    constructor
    case entered => exact booked.entered
    case once => exact moved.nodup_iff.mpr booked.once
    case known => exact fun id' member => booked.known id' (moved.subset member)
    case working => exact booked.working
    case waits => exact booked.waits
    case flushed => exact booked.flushed
    case scored => exact booked.scored
  · cases applied

theorem Booked.recieve (booked : Booked T) (applied : (TrafficEvent.recieve a).apply T = some T₁) :
    Booked T₁ := by
  simp only [TrafficEvent.apply] at applied
  split at applied
  · next free =>
    cases applied
    obtain ⟨idle, arrives⟩ := free
    have none := Option.isNone_iff_eq_none.mp idle
    have moved : (T.queries ++ ((T.answers.erase a).map Answer.id ++ a.id :: T.answered)).Perm
        (T.queries ++ (T.answers.map Answer.id ++ T.answered)) := by
      refine List.Perm.append_left _ (List.perm_middle.trans ?_)
      rw [← List.cons_append, ← List.map_cons]
      exact ((List.perm_cons_erase arrives).symm.map _).append_right _
    have new : a.id ∉ T.answered := by
      intro before
      have apart := (List.nodup_append.mp (List.nodup_append.mp booked.once).2.1).2.2
      exact apart _ (List.mem_map_of_mem arrives) _ before rfl
    constructor
    case entered => exact booked.entered
    case once => exact moved.nodup_iff.mpr booked.once
    case known => exact fun id' member => booked.known id' (moved.subset member)
    case working =>
      rintro _ ⟨⟩
      exact List.mem_cons_self
    case waits =>
      intro r row done
      obtain ⟨answered, _⟩ := booked.waits r row done
      refine ⟨List.mem_cons_of_mem _ answered, ?_⟩
      rintro _ ⟨⟩ same
      exact new (same ▸ answered)
    case flushed => exact booked.flushed
    case scored =>
      intro id' answered
      rcases List.mem_cons.mp answered with rfl | before
      · exact .inl ⟨a, rfl, rfl⟩
      · rcases booked.scored id' before with ⟨a', working, _⟩ | row
        · rw [none] at working
          cases working
        · exact .inr row
  · cases applied

theorem Booked.score (booked : Booked T) (meets : (TrafficEvent.score t).Meets T)
    (applied : (TrafficEvent.score t).apply T = some T₁) : Booked T₁ := by
  obtain ⟨a, working, rfl⟩ := Option.map_eq_some_iff.mp applied
  obtain ⟨timely, capped⟩ := meets a working
  have rows : (recieveDnsAnswer T.scoreboard a.id a.validTrans t).2.rows =
      T.scoreboard.written ++ T.scoreboard.queue.map (Results.answer a.id a.validTrans t) :=
    recieveDnsAnswer_rows _ _ _ _
  -- A row that waits for another answer stays, and an answered one stays answered.
  have stays : ∀ r ∈ T.scoreboard.rows, ∃ r₁ ∈ (recieveDnsAnswer T.scoreboard a.id a.validTrans t).2.rows,
      r₁.id = r.id ∧ (r.recieved = 1 → r₁.recieved = 1) := by
    intro r row
    rw [rows]
    rcases List.mem_append.mp row with written | waiting
    · exact ⟨r, List.mem_append_left _ written, rfl, fun done => done⟩
    · refine ⟨_, List.mem_append_right _ (List.mem_map_of_mem waiting), ?_⟩
      unfold Results.answer
      split
      · exact ⟨rfl, fun _ => rfl⟩
      · exact ⟨rfl, fun done => done⟩
  constructor
  case entered =>
    intro id' issued
    rcases booked.entered id' issued with sending | ⟨r, row, mine⟩
    · exact .inl sending
    · obtain ⟨r₁, row₁, same, _⟩ := stays r row
      exact .inr ⟨r₁, row₁, same.trans mine⟩
  case once => exact booked.once
  case known => exact booked.known
  case working => rintro _ ⟨⟩
  case waits =>
    intro r row done
    refine ⟨?_, by rintro _ ⟨⟩⟩
    rw [rows] at row
    rcases List.mem_append.mp row with written | waiting
    · exact (booked.waits r (List.mem_append_left _ written) done).1
    · obtain ⟨r₀, queued, rfl⟩ := List.mem_map.mp waiting
      by_cases mine : r₀.id = a.id
      · rw [Results.answer, if_pos mine]
        exact mine ▸ booked.working a working
      · rw [answer_of_ne mine] at done ⊢
        exact (booked.waits r₀ (List.mem_append_right _ queued) done).1
  case flushed =>
    intro r written
    rcases writeAnswered_written _ _ (by rw [List.length_map]; exact capped) r written with before | done
    · exact booked.flushed r before
    · exact done
  case scored =>
    intro id' answered
    right
    rcases booked.scored id' answered with ⟨a', working', rfl⟩ | ⟨r, row, mine, done⟩
    · cases working.symm.trans working'
      have issued := booked.known a.id (List.mem_append_right _ (List.mem_append_right _ answered))
      obtain ⟨r, row, mine⟩ : ∃ r ∈ T.scoreboard.rows, r.id = a.id := by
        rcases booked.entered a.id issued with ⟨s, sending, same⟩ | row
        · exact absurd same (timely s sending)
        · exact row
      have waits : r.recieved = 0 := by
        by_contra done
        exact (booked.waits r row done).2 a working mine.symm
      have waiting : r ∈ T.scoreboard.queue :=
        (List.mem_append.mp row).resolve_left fun written => booked.flushed r written waits
      refine ⟨_, rows ▸ List.mem_append_right _ (List.mem_map_of_mem waiting), ?_⟩
      rw [Results.answer, if_pos mine]
      exact ⟨mine, rfl⟩
    · obtain ⟨r₁, row₁, same, still⟩ := stays r row
      exact ⟨r₁, row₁, same.trans mine, still done⟩

theorem booked_step {e : TrafficEvent Time} (booked : Booked T) (meets : e.Meets T)
    (applied : e.apply T = some T₁) : Booked T₁ := by
  cases e with
  | forward id dnsId t => exact booked.forward applied
  | enter => exact booked.enter applied
  | answer id v => exact booked.answer applied
  | recieve a => exact booked.recieve applied
  | score t => exact booked.score meets applied

theorem booked_run (run : TimelyRun T) : Booked T := by
  induction run with
  | start => exact noTraffic_booked
  | step _ meets applied ih => exact booked_step ih meets applied

/-- No answer is lost in a run in which each answer is scored after its request has been entered
and while the queue is within its cap. -/
theorem no_answer_lost (run : TimelyRun T) : NoAnswerLost T := by
  intro idle id answered
  rcases (booked_run run).scored id answered with ⟨a, working, _⟩ | row
  · cases idle.symm.trans working
  · exact row

end

/-! One request, whose answer comes after it is entered and before. -/

def answerSeven : Answer := ⟨7, 1⟩

/-- The request 7 entered, and its answer at the response thread. -/
def sevenEntered : Traffic Nat :=
  ⟨none, [], [], some answerSeven, ⟨[⟨1, 7, 0, 0, 0, 0, 0⟩], []⟩, [7], [7]⟩

theorem no_answer_lost_seven :
    ∃ T : Traffic Nat, (TrafficEvent.score 2).apply sevenEntered = some T ∧ NoAnswerLost T := by
  have entered : TimelyRun sevenEntered := by
    refine .step (e := .recieve answerSeven) (.step (e := .answer 7 1) (.step (e := .enter)
      (.step (e := .forward 7 0 1) .start trivial rfl) trivial rfl) trivial rfl) trivial rfl
  have timely : (TrafficEvent.score 2).Meets sevenEntered := by
    rintro _ ⟨⟩
    exact ⟨by rintro _ ⟨⟩, by decide⟩
  exact ⟨_, rfl, no_answer_lost (.step entered timely rfl)⟩

def followTraffic [Zero Time] (events : List (TrafficEvent Time)) : Option (Traffic Time) :=
  events.foldlM TrafficEvent.apply noTraffic

/-- The server is faster than the generator: the answer finds no request, and the row that the
request has later stays unanswered. -/
theorem fast_answer_lost :
    ∃ T, followTraffic [.forward 7 0 1, .answer 7 1, .recieve answerSeven, .score 2, .enter] = some T ∧
      ¬ @NoAnswerLost Nat T := by
  refine ⟨_, rfl, fun kept => ?_⟩
  obtain ⟨r, row, _, done⟩ := kept rfl 7 (by decide)
  rw [List.mem_singleton.mp row] at done
  cases done

end DnsServer
