import DnsServer.Scoreboard

/-! The requests that a scoreboard has been given, through every order of requests and answers. -/
namespace DnsServer
variable {Time : Type}

def createScoreboard : Scoreboard Time := ⟨[], []⟩

/-- A call that comes from the generator or from the thread that receives answers. -/
inductive ScoreboardCall (Time : Type) where
  | generated (id : UInt16) (dnsId : UInt8) (elapsedTime : Time)
  | answered (id : UInt16) (validTrans : UInt8) (elapsedTime : Time)
  deriving DecidableEq

def ScoreboardCall.apply [Zero Time] (s : Scoreboard Time) : ScoreboardCall Time → Scoreboard Time
  | .generated id dnsId elapsedTime => (recieveGeneratedReq s id dnsId 0 elapsedTime).2
  | .answered id validTrans elapsedTime => (recieveDnsAnswer s id validTrans elapsedTime).2

/-- The scoreboard after the calls. -/
def scoreboardAfter [Zero Time] (calls : List (ScoreboardCall Time)) : Scoreboard Time :=
  calls.foldl ScoreboardCall.apply createScoreboard

/-- What a row says of the request itself. -/
def Results.request (r : Results Time) : Time × UInt16 × UInt8 := (r.startTime, r.id, r.dnsId)

def ScoreboardCall.request : ScoreboardCall Time → Option (Time × UInt16 × UInt8)
  | .generated id dnsId elapsedTime => some (elapsedTime, id, dnsId)
  | .answered _ _ _ => none

def Scoreboard.rows (s : Scoreboard Time) : List (Results Time) := s.written ++ s.queue

/-- The queue is empty or headed by a request that waits, and not too long. -/
structure Scoreboard.Flushed (s : Scoreboard Time) : Prop where
  waits : ∀ front ∈ s.queue.head?, front.recieved = 0
  capped : s.queue.length ≤ 0xFFFF

theorem writeAnswered_flushed (written queue : List (Results Time)) :
    (writeAnswered written queue).Flushed := by
  induction queue generalizing written with
  | nil => exact ⟨by rintro _ ⟨⟩, Nat.zero_le _⟩
  | cons front rest ih =>
    rw [writeAnswered]
    split
    · exact ih _
    · next stays =>
      obtain ⟨waits, capped⟩ := not_or.mp stays
      refine ⟨?_, Nat.le_of_not_lt capped⟩
      rintro _ ⟨⟩
      exact not_not.mp waits

theorem recieveDnsAnswer_flushed (s : Scoreboard Time) (id : UInt16) (validTrans : UInt8)
    (elapsedTime : Time) : (recieveDnsAnswer s id validTrans elapsedTime).2.Flushed :=
  writeAnswered_flushed _ _

/-- An answer leaves what a row says of its request. -/
theorem answer_request (id : UInt16) (validTrans : UInt8) (elapsedTime : Time) (r : Results Time) :
    (r.answer id validTrans elapsedTime).request = r.request := by
  unfold Results.answer
  split <;> rfl

section
variable [Zero Time]

/-- A call adds its request, if it makes one, and keeps all others in their places. -/
theorem apply_requests (s : Scoreboard Time) (call : ScoreboardCall Time) :
    (call.apply s).rows.map Results.request = s.rows.map Results.request ++ call.request.toList := by
  cases call with
  | generated id dnsId elapsedTime =>
    simp [ScoreboardCall.apply, recieveGeneratedReq, Scoreboard.rows, ScoreboardCall.request, Results.request]
  | answered id validTrans elapsedTime =>
    change (Scoreboard.rows (recieveDnsAnswer s id validTrans elapsedTime).2).map _ = _
    rw [Scoreboard.rows, recieveDnsAnswer_rows, List.map_append, List.map_map, Scoreboard.rows, List.map_append]
    have same : Results.request ∘ Results.answer id validTrans elapsedTime = Results.request := by
      funext r
      exact answer_request id validTrans elapsedTime r
    rw [same]
    exact (List.append_nil _).symm

theorem scoreboardAfter_concat (calls : List (ScoreboardCall Time)) (call : ScoreboardCall Time) :
    scoreboardAfter (calls ++ [call]) = call.apply (scoreboardAfter calls) := by
  simp [scoreboardAfter]

/-- The rows are those of the requests generated so far, in their order. -/
theorem rows_requests (calls : List (ScoreboardCall Time)) :
    (scoreboardAfter calls).rows.map Results.request = calls.filterMap ScoreboardCall.request := by
  induction calls using List.reverseRecOn with
  | nil => rfl
  | append_singleton calls call ih =>
    rw [scoreboardAfter_concat, apply_requests, ih, List.filterMap_append]
    cases call <;> rfl

/-- However requests and answers follow each other, the rows written and those that wait are the
generated requests in order; an answer leaves no answered request at the head of the queue and at
most 65535 in it; and in the end each request has been written once. -/
theorem requests_kept (calls : List (ScoreboardCall Time)) :
    (scoreboardAfter calls).rows.map Results.request = calls.filterMap ScoreboardCall.request ∧
    (∀ before id validTrans elapsedTime, calls = before ++ [.answered id validTrans elapsedTime] →
      (scoreboardAfter calls).Flushed) ∧
    (destroyScoreboard (scoreboardAfter calls)).queue = [] ∧
    (destroyScoreboard (scoreboardAfter calls)).written.map Results.request =
      calls.filterMap ScoreboardCall.request := by
  refine ⟨rows_requests calls, ?_, rfl, rows_requests calls⟩
  rintro before id validTrans elapsedTime rfl
  rw [scoreboardAfter_concat]
  exact recieveDnsAnswer_flushed _ _ _ _

end

/-- Two requests share an id and one answer serves both. -/
example : (@scoreboardAfter Nat _ [.generated 7 0 1, .generated 7 1 2, .answered 7 1 3]).written =
    [⟨1, 7, 0, 0, 1, 3, 1⟩, ⟨2, 7, 1, 0, 1, 3, 1⟩] := by decide

end DnsServer
