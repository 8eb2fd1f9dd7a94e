import DnsServer.Dns.Server
import Mathlib.Algebra.GroupWithZero.Nat

/-! The scoreboard: requests that wait for their answer and the rows written for those done. -/
namespace DnsServer
variable {Time : Type}

structure Results (Time : Type) where
  startTime : Time
  id : UInt16
  dnsId : UInt8
  rrlRemoved : UInt8
  recieved : UInt8
  finishTime : Time
  found : UInt8
  deriving DecidableEq

/-- `written` holds the rows of the results file, which print every field. -/
structure Scoreboard (Time : Type) where
  queue : List (Results Time)
  written : List (Results Time)

def recieveGeneratedReq [Zero Time] (s : Scoreboard Time) (id : UInt16) (dnsId rrlRemoved : UInt8)
    (elapsedTime : Time) : UInt8 × Scoreboard Time :=
  let results : Results Time := {
    startTime := elapsedTime, id, dnsId, recieved := 0, rrlRemoved, finishTime := 0, found := 0 }
  if rrlRemoved ≠ 0 then (0, { s with written := s.written ++ [results] })
  else (0, { s with queue := s.queue ++ [results] })

def Results.answer (id : UInt16) (validTrans : UInt8) (elapsedTime : Time) (r : Results Time) :
    Results Time :=
  if r.id = id then { r with finishTime := elapsedTime, recieved := 1, found := validTrans } else r

/-- Writes out the head of the queue while it is answered or the queue is too long. -/
def writeAnswered (written : List (Results Time)) : List (Results Time) → Scoreboard Time
  | [] => ⟨[], written⟩
  | front :: rest =>
    if front.recieved ≠ 0 ∨ rest.length + 1 > 0xFFFF then writeAnswered (written ++ [front]) rest
    else ⟨front :: rest, written⟩

def recieveDnsAnswer (s : Scoreboard Time) (id : UInt16) (validTrans : UInt8)
    (elapsedTime : Time) : UInt8 × Scoreboard Time :=
  let found := s.queue.any fun r => r.id = id
  let s := writeAnswered s.written (s.queue.map (Results.answer id validTrans elapsedTime))
  (if found then 0 else 1, s)

def destroyScoreboard (s : Scoreboard Time) : Scoreboard Time := ⟨[], s.written ++ s.queue⟩

/-- The memory of the handler's thread, kept from turn to turn, and its scoreboard. -/
structure ResponseHandler (Time : Type) where
  dnsMessage : Message
  buffer : Bytes
  scoreboard : Scoreboard Time

/-- One turn of the loop; the parser's error code is not looked at. -/
def dnsResponseHandler (handler : ResponseHandler Time) (datagram : Option Bytes)
    (elapsedTime : Time) : Option (ResponseHandler Time) := do
  let (messageLen, buffer) := recieveMessage handler.buffer datagram
  match ← parseMessage buffer (some handler.dnsMessage) messageLen with
  | (_, some dnsMessage) =>
    let validTrans := if dnsMessage.header.rcode = 0x3 then 0 else 1
    let (_, scoreboard) :=
      recieveDnsAnswer handler.scoreboard dnsMessage.header.id validTrans elapsedTime
    return { dnsMessage, buffer, scoreboard }
  | (_, none) => none

/-- Writing rows out moves them and changes none. -/
theorem writeAnswered_rows (written queue : List (Results Time)) :
    (writeAnswered written queue).written ++ (writeAnswered written queue).queue =
      written ++ queue := by
  induction queue generalizing written with
  | nil => rfl
  | cons front rest ih =>
    rw [writeAnswered]
    split
    · rw [ih, List.append_assoc]
      rfl
    · rfl

theorem recieveDnsAnswer_rows (s : Scoreboard Time) (id : UInt16) (validTrans : UInt8)
    (elapsedTime : Time) :
    (recieveDnsAnswer s id validTrans elapsedTime).2.written ++
        (recieveDnsAnswer s id validTrans elapsedTime).2.queue =
      s.written ++ s.queue.map (Results.answer id validTrans elapsedTime) :=
  writeAnswered_rows _ _

theorem answer_of_ne {r : Results Time} {id : UInt16} (other : r.id ≠ id) :
    Results.answer id validTrans elapsedTime r = r := if_neg other

end DnsServer
