import DnsServer.Router.Programs
import DnsServer.Process.Trace
import Mathlib.Algebra.Ring.Int.Defs

/-! The reply that the router receives in pieces: where each piece is put, which splits keep it inside the
pointer, and that the loop does not end where the client gives up. -/
namespace DnsServer
open Process Program Memory

/-- What follows the loop that receives the pointer. -/
def useReply (socket : Socket) (result : Bytes) : Proc UInt8 := do
  if result ≠ List.replicate pointerSize 0 then
    let dns : Server ← act (.object result)
    let _ ← addDnsServer dns
  unlock .tcpMutex
  close socket
  return 0

/-- The loop in a state of its own. -/
def replyFrom (socket : Socket) (state : Bytes × Nat × UInt8) : Proc UInt8 :=
  .loop state (recievePointerPart socket) (useReply socket)

def recieveReply (socket : Socket) : Proc UInt8 :=
  replyFrom socket (List.replicate pointerSize 0, 0, 0)

theorem checkTcpConnections_reply : checkTcpConnections = (do
    let newSocket ← createTcpConnections routerTcpPortNum
    lock .tcpMutex
    let router : Router ← act .router
    if !(← send newSocket [router.serverCnt]) then return 1
    let sent ← sendPorts newSocket
    if sent ≠ 0 then return sent
    recieveReply newSocket) := rfl

/-! The outcomes of the receives, a failed one being `none`. -/

def arrived (outs : List (Option Bytes)) : Bytes := outs.flatMap fun outcome => outcome.getD []

/-- The running count: the bytes that have arrived, less one for each failed receive. -/
def tally (outs : List (Option Bytes)) : Int := (arrived outs).length - outs.count none

/-- The counts after each of the outcomes, added up. -/
def place (outs : List (Option Bytes)) : Int :=
  ((List.range outs.length).map fun i => tally (outs.take (i + 1))).sum

/-- A receive is made while the count is between 0 and 7, and brings at most the bytes that are missing. -/
def Asked (outs : List (Option Bytes)) : Prop :=
  ∀ before outcome, before ++ [outcome] <+: outs →
    0 ≤ tally before ∧ tally before < pointerSize ∧
      ∀ bytes, outcome = some bytes → tally before + bytes.length ≤ pointerSize

/-- Every piece lies inside the pointer if it is put as far on as the counts before it add up to. -/
def Fits (outs : List (Option Bytes)) : Prop :=
  ∀ before bytes, before ++ [some bytes] <+: outs → bytes ≠ [] → place before + bytes.length ≤ pointerSize

@[simp] theorem arrived_append (outs outs' : List (Option Bytes)) :
    arrived (outs ++ outs') = arrived outs ++ arrived outs' := List.flatMap_append

theorem tally_append_some (outs : List (Option Bytes)) (bytes : Bytes) :
    tally (outs ++ [some bytes]) = tally outs + bytes.length := by
  simp [tally, arrived]
  omega

theorem tally_append_none (outs : List (Option Bytes)) : tally (outs ++ [none]) = tally outs - 1 := by
  simp [tally, arrived]
  omega

theorem place_append (outs : List (Option Bytes)) (outcome : Option Bytes) :
    place (outs ++ [outcome]) = place outs + tally (outs ++ [outcome]) := by
  have before : ∀ i ∈ List.range outs.length,
      tally ((outs ++ [outcome]).take (i + 1)) = tally (outs.take (i + 1)) := by
    intro i member
    rw [List.take_append_of_le_length (List.mem_range.mp member)]
  rw [place, List.length_append, List.length_singleton, List.range_succ, List.map_append,
    List.map_congr_left before, List.sum_append, List.map_singleton, List.sum_singleton,
    List.take_of_length_le (by simp)]
  rfl

theorem asked_append : Asked (outs ++ [outcome]) ↔ Asked outs ∧ 0 ≤ tally outs ∧ tally outs < pointerSize ∧
    ∀ bytes, outcome = some bytes → tally outs + bytes.length ≤ pointerSize := by
  constructor
  · intro asked
    exact ⟨fun before o start => asked before o (start.trans (List.prefix_append _ _)), asked outs outcome List.prefix_rfl⟩
  · rintro ⟨asked, last⟩ before o start
    rcases List.prefix_concat_iff.mp start with same | start
    · obtain ⟨rfl, only⟩ := List.append_inj' same rfl
      cases only
      exact last
    · exact asked before o start

theorem asked_nil : Asked [] := by
  intro before outcome start
  simp at start

theorem fits_append : Fits (outs ++ [outcome]) ↔ Fits outs ∧
    ∀ bytes, outcome = some bytes → bytes ≠ [] → place outs + bytes.length ≤ pointerSize := by
  constructor
  · intro fits
    refine ⟨fun before bytes start => fits before bytes (start.trans (List.prefix_append _ _)), ?_⟩
    rintro bytes rfl
    exact fits outs bytes List.prefix_rfl
  · rintro ⟨fits, last⟩ before bytes start
    rcases List.prefix_concat_iff.mp start with same | start
    · obtain ⟨rfl, only⟩ := List.append_inj' same rfl
      cases only
      exact last bytes rfl
    · exact fits before bytes start

/-! The state of the loop. -/

/-- One turn of the loop: the state after an outcome, `none` where it writes outside. -/
def partAfter : Bytes × Nat × UInt8 → Option Bytes → Option (Bytes × Nat × UInt8)
  | (result, res, size), none => some (result, res + (size - 1).toNat, size - 1)
  | (result, res, size), some bytes =>
    (store result res bytes).map fun result =>
      (result, res + (size + UInt8.ofNat bytes.length).toNat, size + UInt8.ofNat bytes.length)

/-- What the loop has of the reply after these outcomes. The place of the next piece is never before the end
of the bytes that have arrived, and is their end only while they stand in order. -/
structure Placed (outs : List (Option Bytes)) (result : Bytes) (res : Nat) (size : UInt8) : Prop where
  full : result.length = pointerSize
  counted : (size.toNat : Int) = tally outs % 256
  put : 0 ≤ tally outs → (res : Int) = place outs
  behind : (arrived outs).length ≤ res
  within : (arrived outs).length ≤ pointerSize
  free : ∀ b ∈ result.drop res, b = 0
  zero : (∀ b ∈ result, b = 0) ↔ ∀ b ∈ arrived outs, b = 0
  inOrder : res = (arrived outs).length → result.take res = arrived outs
  whole : (arrived outs).length = pointerSize → result = arrived outs

theorem placed_start : Placed [] (List.replicate pointerSize 0) 0 0 := by
  constructor
  all_goals simp [arrived, tally, place, pointerSize]

theorem free_later {result : Bytes} {res res' : Nat} (free : ∀ b ∈ result.drop res, b = (0 : UInt8))
    (later : res ≤ res') :
    ∀ b ∈ result.drop res', b = 0 := by
  intro b member
  obtain ⟨more, rfl⟩ := Nat.exists_eq_add_of_le later
  rw [← List.drop_drop] at member
  exact free b (List.mem_of_mem_drop member)

section
variable {outs : List (Option Bytes)} {result : Bytes} {res : Nat} {size : UInt8}

/-- Nothing has arrived, and the place moves on by the new count. -/
theorem Placed.failed (placed : Placed outs result res size) (counting : 0 ≤ tally outs)
    (more : tally outs < pointerSize) : Placed (outs ++ [none]) result (res + (size - 1).toNat) (size - 1) := by
  have same : arrived (outs ++ [none]) = arrived outs := by simp [arrived]
  have fewer := tally_append_none outs
  have count := placed.counted
  have next : ((size - 1).toNat : Int) = (tally outs - 1) % 256 := by
    rw [UInt8.toNat_sub]
    simp only [pointerSize, UInt8.reduceToNat] at more ⊢
    omega
  constructor
  case full => exact placed.full
  case counted => rw [fewer, next]
  case put =>
    intro counting'
    rw [place_append, ← placed.put counting, fewer]
    simp only [pointerSize] at more
    omega
  case free => exact free_later placed.free (Nat.le_add_right _ _)
  all_goals rw [same]
  case behind => exact placed.behind.trans (Nat.le_add_right _ _)
  case within => exact placed.within
  case zero => exact placed.zero
  case inOrder =>
    intro ended
    have behind := placed.behind
    have still : (size - 1).toNat = 0 := by omega
    rw [still] at ended ⊢
    exact placed.inOrder ended
  case whole => exact placed.whole

/-- A piece that fits is put behind all that is there. -/
theorem Placed.store (placed : Placed outs result res size) (counting : 0 ≤ tally outs) (bytes : Bytes)
    (asked : tally outs + bytes.length ≤ pointerSize)
    (fits : bytes ≠ [] → place outs + bytes.length ≤ pointerSize) :
    ∃ result', store result res bytes = some result' ∧
      Placed (outs ++ [some bytes]) result' (res + (size + UInt8.ofNat bytes.length).toNat)
        (size + UInt8.ofNat bytes.length) := by
  have count := placed.counted
  have sum : arrived (outs ++ [some bytes]) = arrived outs ++ bytes := by simp [arrived]
  have more := tally_append_some outs bytes
  simp only [pointerSize] at asked fits
  have next : ((size + UInt8.ofNat bytes.length).toNat : Int) = tally outs + bytes.length := by
    rw [UInt8.toNat_add, UInt8.toNat_ofNat']
    omega
  generalize size + UInt8.ofNat bytes.length = size' at next ⊢
  have behind := placed.behind
  have free := placed.free
  have counted' : (size'.toNat : Int) = tally (outs ++ [some bytes]) % 256 := by omega
  have put' : ((res + size'.toNat : Nat) : Int) = place (outs ++ [some bytes]) := by
    rw [place_append, ← placed.put counting, more]
    omega
  by_cases empty : bytes = []
  · subst empty
    refine ⟨result, if_pos rfl, ?_⟩
    constructor
    case full => exact placed.full
    case counted => exact counted'
    case put => exact fun _ => put'
    case free => exact free_later free (Nat.le_add_right _ _)
    all_goals rw [sum, List.append_nil]
    case behind => exact behind.trans (Nat.le_add_right _ _)
    case within => exact placed.within
    case zero => exact placed.zero
    case inOrder =>
      intro ended
      have still : size'.toNat = 0 := by omega
      rw [still] at ended ⊢
      exact placed.inOrder ended
    case whole => exact placed.whole
  · have room := fits empty
    rw [← placed.put counting] at room
    have full := placed.full
    simp only [pointerSize] at full
    have more' : 0 < bytes.length := List.length_pos_iff.mpr empty
    have first : (result.take res).length = res := List.length_take_of_le (by omega)
    have rest : result.drop (res + bytes.length) ⊆ result.drop res := by
      rw [← List.drop_drop]
      exact List.drop_subset _ _
    have front : (result.take res ++ bytes).length = res + bytes.length := by rw [List.length_append, first]
    -- The bytes stand in order only if nothing but this piece has moved the place.
    have standing : res = (arrived outs).length → (result.take res ++ bytes ++ result.drop (res + bytes.length)).take
        (res + bytes.length) = arrived outs ++ bytes := by
      intro ended
      rw [List.take_left' front, placed.inOrder ended]
    have stored : DnsServer.store result res bytes =
        some (result.take res ++ bytes ++ result.drop (res + bytes.length)) := by
      rw [DnsServer.store, if_neg empty, write, if_pos (by omega)]
    refine ⟨_, stored, ?_⟩
    constructor
    case counted => exact counted'
    case put => exact fun _ => put'
    case full =>
      simp only [List.length_append, first, List.length_drop, pointerSize]
      omega
    case free =>
      refine free_later ?_ (show res + bytes.length ≤ res + size'.toNat by omega)
      intro b member
      rw [List.drop_left' front] at member
      exact free b (rest member)
    all_goals rw [sum]
    case behind =>
      rw [List.length_append]
      omega
    case within =>
      rw [List.length_append]
      simp only [pointerSize]
      omega
    case zero =>
      have used : (∀ b ∈ result, b = 0) ↔ ∀ b ∈ result.take res, b = 0 := by
        constructor
        · exact fun all b member => all b (List.mem_of_mem_take member)
        · intro all b member
          rw [← List.take_append_drop res result] at member
          rcases List.mem_append.mp member with member | member
          · exact all b member
          · exact free b member
      simp only [List.forall_mem_append, ← placed.zero, used]
      constructor
      · rintro ⟨before, _⟩
        exact before
      · intro before
        exact ⟨before, fun b member => free b (rest member)⟩
    case inOrder =>
      intro ended
      rw [List.length_append] at ended
      have same : size'.toNat = bytes.length := by omega
      rw [same] at ended ⊢
      exact standing (by omega)
    case whole =>
      intro all
      rw [List.length_append] at all
      simp only [pointerSize] at all
      have ended := standing (by omega)
      rw [List.take_of_length_le] at ended
      · exact ended
      · simp only [List.length_append, first, List.length_drop]
        omega

end

theorem asked_tally (asked : Asked outs) : -1 ≤ tally outs ∧ tally outs ≤ pointerSize := by
  rcases List.eq_nil_or_concat outs with rfl | ⟨before, outcome, rfl⟩
  · decide
  · rw [List.concat_eq_append] at asked ⊢
    obtain ⟨_, low, high, room⟩ := asked_append.mp asked
    cases outcome with
    | none =>
      rw [tally_append_none]
      omega
    | some bytes =>
      rw [tally_append_some]
      have more := room bytes rfl
      omega

/-! The program's turns. -/

def outcomes : List (Event platform.interface) → List (Option Bytes)
  | [] => []
  | ⟨.recv _ _, outcome⟩ :: tr => outcome :: outcomes tr
  | _ :: tr => outcomes tr

theorem outcomes_append (tr tr' : List (Event platform.interface)) :
    outcomes (tr ++ tr') = outcomes tr ++ outcomes tr' := by
  induction tr with
  | nil => rfl
  | cons event tr ih =>
    obtain ⟨op, r⟩ := event
    cases op with
    | recv q len => exact congrArg (r :: ·) ih
    | _ => exact ih

def afterPart (socket : Socket) : Option (Bytes × Nat × UInt8) → Proc UInt8
  | none => fault
  | some state => replyFrom socket state

section
variable {tr : List (Event platform.interface)} {op : platform.Call}

theorem requests_fault : Requests (fault : Proc α) tr op ↔ tr = [] ∧ op = .act .fault := by
  constructor
  · intro requested
    rcases requests_call_iff.mp requested with same | ⟨impossible, _⟩
    · exact same
    · exact impossible.elim
  · rintro ⟨rfl, rfl⟩
    exact .here

/-- While bytes are missing the loop receives, and goes on from what the outcome leaves. -/
theorem requests_part {size : UInt8} (missing : size.toNat < pointerSize) :
    Requests (replyFrom socket (result, res, size)) tr op ↔
      tr = [] ∧ op = .recv socket (pointerSize - size.toNat) ∨
      ∃ outcome rest, tr = ⟨.recv socket (pointerSize - size.toNat), outcome⟩ :: rest ∧
        Requests (afterPart socket (partAfter (result, res, size) outcome)) rest op := by
  have turn : ∃ k, unroll (result, res, size) (recievePointerPart socket) (useReply socket) =
      @Program.call platform.interface UInt8 (.recv socket (pointerSize - size.toNat)) k ∧
        ∀ outcome, k outcome = afterPart socket (partAfter (result, res, size) outcome) := by
    simp only [unroll, recievePointerPart, if_neg (Nat.not_le.mpr missing), recv, request, bind_eq, pure_eq,
      call_bind, ret_bind]
    refine ⟨_, rfl, fun outcome => ?_⟩
    cases outcome with
    | none => rfl
    | some bytes =>
      simp only [partAfter]
      cases store result res bytes with
      | none => exact fault_bind _
      | some result => rfl
  obtain ⟨k, turn, next⟩ := turn
  rw [replyFrom, requests_loop_iff, turn, requests_call_iff]
  simp only [next]

/-- The loop ends with no byte missing by its count. -/
theorem requests_ended {size : UInt8} (ended : pointerSize ≤ size.toNat) :
    Requests (replyFrom socket (result, res, size)) tr op ↔ Requests (useReply socket result) tr op := by
  rw [replyFrom, requests_loop_iff]
  simp only [unroll, recievePointerPart, if_pos ended, pure_eq, ret_bind]

/-- Neither undefined behaviour nor a pointer that is used. -/
def plain : platform.Call → Prop
  | .act .fault => False
  | .act (.object _) => False
  | _ => True

theorem useReply_requests (requested : Requests (useReply socket result) tr op) :
    op ≠ .act .fault ∧ ∀ pointer, op = .act (.object pointer) →
      tr = [] ∧ pointer = result ∧ result ≠ List.replicate pointerSize 0 := by
  have other : plain op → op ≠ .act .fault ∧ ∀ pointer, op = .act (.object pointer) →
      tr = [] ∧ pointer = result ∧ result ≠ List.replicate pointerSize 0 := by
    intro plain
    constructor
    · rintro rfl
      exact plain
    · rintro pointer rfl
      exact plain.elim
  simp only [useReply, addDnsServer, lock, unlock, close, act, request, bind_eq, pure_eq] at requested
  split at requested
  · next used =>
    simp only [call_bind, ret_bind] at requested
    rcases requests_call_iff.mp requested with ⟨rfl, rfl⟩ | ⟨dns, rest, rfl, after⟩
    · refine ⟨by rintro ⟨⟩, ?_⟩
      rintro pointer ⟨⟩
      exact ⟨rfl, rfl, used⟩
    · refine other (Asks.requests (show Asks plain _ from ?_) after)
      exact .call trivial fun _ => .call trivial fun _ => .call trivial fun _ => .call trivial fun _ =>
        .call trivial fun _ => trivial
  · simp only [call_bind, ret_bind] at requested
    refine other (Asks.requests (show Asks plain _ from ?_) requested)
    exact .call trivial fun _ => .call trivial fun _ => trivial

end

/-! Which splits of the reply are put together or dropped. -/

/-- Up to any point of these receives the loop has written inside the pointer only, and a pointer that is used
is all of the eight bytes that have arrived. -/
structure ReplyExact (socket : Socket) (outs : List (Option Bytes)) : Prop where
  inside : ∀ tr, outcomes tr <+: outs → ¬ Requests (recieveReply socket) tr (.act .fault)
  exact : ∀ tr pointer, outcomes tr <+: outs → Requests (recieveReply socket) tr (.act (.object pointer)) →
    pointer = arrived (outcomes tr) ∧ pointer.length = pointerSize

/-- The pieces fit; and where failed receives have outnumbered the bytes, these are a whole pointer or all
zero. -/
def HarmlessReply (outs : List (Option Bytes)) : Prop :=
  Fits outs ∧ (tally outs < 0 → (∀ b ∈ arrived outs, b = 0) ∨ (arrived outs).length = pointerSize)

theorem ReplyExact.mono (exact : ReplyExact socket outs) (start : outs' <+: outs) : ReplyExact socket outs' :=
  ⟨fun tr here => exact.inside tr (here.trans start), fun tr pointer here => exact.exact tr pointer (here.trans start)⟩

theorem replicate_iff {result : Bytes} (full : result.length = pointerSize) :
    result = List.replicate pointerSize 0 ↔ ∀ b ∈ result, b = 0 := by
  rw [List.eq_replicate_iff]
  exact and_iff_right full

/-- One outcome from a state of the loop: a piece that does not fit is written outside, any other leaves a
state again. -/
theorem placed_turn (placed : Placed outs result res size) (asked : Asked (outs ++ [outcome])) :
    (∀ bytes, outcome = some bytes → bytes ≠ [] → place outs + bytes.length ≤ pointerSize) ∧
      (∃ result' res' size', partAfter (result, res, size) outcome = some (result', res', size') ∧
        Placed (outs ++ [outcome]) result' res' size') ∨
    ¬ (∀ bytes, outcome = some bytes → bytes ≠ [] → place outs + bytes.length ≤ pointerSize) ∧
      partAfter (result, res, size) outcome = none := by
  obtain ⟨_, low, high, room⟩ := asked_append.mp asked
  cases outcome with
  | none => exact .inl ⟨by rintro _ ⟨⟩, _, _, _, rfl, placed.failed low high⟩
  | some bytes =>
    by_cases fits : bytes ≠ [] → place outs + bytes.length ≤ pointerSize
    · obtain ⟨result', stored, placed'⟩ := placed.store low bytes (room bytes rfl) fits
      refine .inl ⟨by rintro _ ⟨⟩; exact fits, _, _, _, ?_, placed'⟩
      rw [partAfter, stored]
      rfl
    · refine .inr ⟨fun all => fits (all bytes rfl), ?_⟩
      obtain ⟨some, long⟩ := Classical.not_imp.mp fits
      have outside : store result res bytes = none := by
        have full := placed.full
        have put := placed.put low
        rw [store, if_neg some, write, if_neg (by omega)]
      rw [partAfter, outside]
      rfl

theorem placed_missing (placed : Placed outs result res size) (low : 0 ≤ tally outs) (high : tally outs < pointerSize) :
    size.toNat < pointerSize := by
  have counted := placed.counted
  simp only [pointerSize] at high ⊢
  omega

/-- Fitting pieces take the loop to a state that holds them. -/
theorem placed_reaches (socket : Socket) (asked : Asked outs) (fits : Fits outs) : ∃ before result res size,
    Placed outs result res size ∧ outcomes before = outs ∧
      ∀ tr op, Requests (replyFrom socket (result, res, size)) tr op →
        Requests (recieveReply socket) (before ++ tr) op := by
  induction outs using List.reverseRecOn with
  | nil => exact ⟨[], _, _, _, placed_start, rfl, fun tr op requested => requested⟩
  | append_singleton outs outcome ih =>
    obtain ⟨asked', low, high, _⟩ := asked_append.mp asked
    obtain ⟨fits', last⟩ := fits_append.mp fits
    obtain ⟨before, result, res, size, placed, rfl, reaches⟩ := ih asked' fits'
    rcases placed_turn placed asked with ⟨_, result', res', size', next, placed'⟩ | ⟨outside, _⟩
    · refine ⟨before ++ [⟨.recv socket (pointerSize - size.toNat), outcome⟩], result', res', size', placed',
        outcomes_append .., fun tr op requested => ?_⟩
      rw [List.append_assoc]
      refine reaches _ _ ((requests_part (placed_missing placed low high)).mpr (.inr ⟨outcome, tr, rfl, ?_⟩))
      rw [next]
      exact requested
    · exact absurd last outside

/-- From a state that holds what has arrived, harmless outcomes lead to no other request. -/
theorem placed_requests {tr : List (Event platform.interface)} {op : platform.Call} {size : UInt8}
    (placed : Placed before result res size) (asked : Asked (before ++ rest)) (harmless : HarmlessReply (before ++ rest))
    (here : outcomes tr <+: rest) (requested : Requests (replyFrom socket (result, res, size)) tr op) :
    op ≠ .act .fault ∧ ∀ pointer, op = .act (.object pointer) →
      pointer = arrived (before ++ outcomes tr) ∧ pointer.length = pointerSize := by
  induction rest generalizing before result res size tr with
  | nil =>
    rw [List.append_nil] at asked harmless
    by_cases missing : size.toNat < pointerSize
    · rcases (requests_part missing).mp requested with ⟨rfl, rfl⟩ | ⟨outcome, rest, rfl, _⟩
      · exact ⟨by rintro ⟨⟩, by rintro _ ⟨⟩⟩
      · exact absurd (List.prefix_nil.mp here) (List.cons_ne_nil _ _)
    · obtain ⟨noFault, used⟩ := useReply_requests ((requests_ended (Nat.not_lt.mp missing)).mp requested)
      refine ⟨noFault, fun pointer same => ?_⟩
      obtain ⟨rfl, rfl, some⟩ := used pointer same
      have counted := placed.counted
      have bounds := asked_tally asked
      have within := placed.within
      have all : (arrived before).length = pointerSize := by
        by_cases short : tally before < 0
        · rcases harmless.2 short with zero | all
          · exact absurd ((replicate_iff placed.full).mpr (placed.zero.mpr zero)) some
          · exact all
        · have eight : tally before = pointerSize := by
            simp only [pointerSize] at missing bounds ⊢
            omega
          simp only [tally] at eight
          omega
      exact ⟨by rw [placed.whole all, outcomes, List.append_nil], placed.full⟩
  | cons outcome rest ih =>
    rw [List.append_cons] at asked harmless
    have first : Asked (before ++ [outcome]) := fun b o start => asked b o (start.trans (List.prefix_append _ _))
    obtain ⟨_, low, high, _⟩ := asked_append.mp first
    rcases (requests_part (placed_missing placed low high)).mp requested with ⟨rfl, rfl⟩ | ⟨_, after, rfl, continued⟩
    · exact ⟨by rintro ⟨⟩, by rintro _ ⟨⟩⟩
    · obtain ⟨rfl, here'⟩ := List.cons_prefix_cons.mp here
      rcases placed_turn placed first with ⟨_, result', res', size', next, placed'⟩ | ⟨outside, _⟩
      · rw [next] at continued
        have ends := ih placed' asked harmless here' continued
        rwa [List.append_assoc] at ends
      · refine absurd ?_ outside
        rintro bytes rfl
        exact harmless.1 before bytes (List.prefix_append _ _)

theorem fits_of_exact (asked : Asked outs) (exact : ReplyExact socket outs) : Fits outs := by
  induction outs using List.reverseRecOn with
  | nil =>
    intro before bytes start
    simp at start
  | append_singleton outs outcome ih =>
    obtain ⟨asked', low, high, _⟩ := asked_append.mp asked
    have fits := ih asked' (exact.mono (List.prefix_append _ _))
    obtain ⟨before, result, res, size, placed, same, reaches⟩ := placed_reaches socket asked' fits
    rcases placed_turn placed asked with ⟨last, _⟩ | ⟨_, outside⟩
    · exact fits_append.mpr ⟨fits, last⟩
    · have fails := reaches [⟨.recv socket (pointerSize - size.toNat), outcome⟩] (.act .fault)
        ((requests_part (placed_missing placed low high)).mpr (.inr ⟨outcome, [], rfl, by
          rw [outside]
          exact requests_fault.mpr ⟨rfl, rfl⟩⟩))
      refine absurd fails (exact.inside _ ?_)
      rw [outcomes_append, same]
      exact List.prefix_rfl

/-- The reply is put together exactly or not used, whatever its receives, exactly when they are harmless. -/
theorem reply_exact_iff (socket : Socket) (outs : List (Option Bytes)) (asked : Asked outs) :
    ReplyExact socket outs ↔ HarmlessReply outs := by
  constructor
  · intro exact
    have fits := fits_of_exact asked exact
    refine ⟨fits, fun short => ?_⟩
    obtain ⟨before, result, res, size, placed, same, reaches⟩ := placed_reaches socket asked fits
    have counted := placed.counted
    have bounds := asked_tally asked
    have ended : pointerSize ≤ size.toNat := by
      simp only [pointerSize]
      omega
    by_cases none : result = List.replicate pointerSize 0
    · exact .inl (placed.zero.mp ((replicate_iff placed.full).mp none))
    · have used : Requests (useReply socket result) [] (.act (.object result)) := by
        rw [useReply, if_pos none]
        exact .here
      obtain ⟨whole, full⟩ := exact.exact before result (by rw [same])
        (by simpa using reaches [] _ ((requests_ended ended).mpr used))
      rw [same] at whole
      exact .inr (by rw [← whole, full])
  · intro harmless
    constructor
    · intro tr here requested
      exact (placed_requests placed_start asked harmless here requested).1 rfl
    · intro tr pointer here requested
      exact (placed_requests placed_start asked harmless here requested).2 pointer rfl

/-- Three bytes, and then the rest. -/
theorem reply_exact_two_pieces :
    ReplyExact ⟨0, .server⟩ [some [1, 2, 3], some [4, 5, 6, 7, 8]] ↔
      HarmlessReply [some [1, 2, 3], some [4, 5, 6, 7, 8]] :=
  reply_exact_iff ⟨0, .server⟩ [some [1, 2, 3], some [4, 5, 6, 7, 8]] (by
    have first : Asked [some [1, 2, 3]] := asked_append.mpr ⟨asked_nil, by decide, by decide, by rintro _ ⟨⟩; decide⟩
    exact asked_append.mpr ⟨first, by decide, by decide, by rintro _ ⟨⟩; decide⟩)

/-- Three pieces of which the last is put two bytes too far on. -/
theorem three_pieces_outside :
    ¬ ReplyExact ⟨0, .server⟩ [some [1, 2], some [3, 4], some [5, 6, 7, 8]] := by
  intro exact
  have first : Asked [some [1, 2]] := asked_append.mpr ⟨asked_nil, by decide, by decide, by rintro _ ⟨⟩; decide⟩
  have second : Asked [some [1, 2], some [3, 4]] :=
    asked_append.mpr ⟨first, by decide, by decide, by rintro _ ⟨⟩; decide⟩
  have asked : Asked [some [1, 2], some [3, 4], some [5, 6, 7, 8]] :=
    asked_append.mpr ⟨second, by decide, by decide, by rintro _ ⟨⟩; decide⟩
  have last := fits_of_exact asked exact [some [1, 2], some [3, 4]] [5, 6, 7, 8] List.prefix_rfl (by simp)
  revert last
  decide

/-! A reply that comes in whole. -/

theorem place_nonneg (asked : Asked outs) (low : 0 ≤ tally outs) : 0 ≤ place outs := by
  induction outs using List.reverseRecOn with
  | nil => decide
  | append_singleton outs outcome ih =>
    obtain ⟨asked', low', _⟩ := asked_append.mp asked
    rw [place_append]
    have before := ih asked' low'
    omega

/-- Where the place has not moved, nothing has arrived and nothing has failed. -/
theorem place_eq_zero (asked : Asked outs) (low : 0 ≤ tally outs) (still : place outs = 0) :
    tally outs = 0 ∧ ∀ outcome ∈ outs, outcome = some [] := by
  induction outs using List.reverseRecOn with
  | nil => simp [tally, arrived]
  | append_singleton outs outcome ih =>
    obtain ⟨asked', low', _⟩ := asked_append.mp asked
    rw [place_append] at still
    have before := place_nonneg asked' low'
    obtain ⟨none, empty⟩ := ih asked' low' (by omega)
    have last : outcome = some [] := by
      cases outcome with
      | none =>
        rw [tally_append_none] at low
        omega
      | some bytes =>
        rw [tally_append_some] at still
        rw [List.eq_nil_of_length_eq_zero (show bytes.length = 0 by omega)]
    refine ⟨by omega, ?_⟩
    intro o member
    rcases List.mem_append.mp member with member | member
    · exact empty o member
    · rw [List.mem_singleton.mp member, last]

theorem empty_fits (empty : ∀ outcome ∈ outs, outcome = some []) :
    tally outs = 0 ∧ place outs = 0 ∧ Fits outs := by
  induction outs using List.reverseRecOn with
  | nil => exact ⟨by decide, by decide, fun before bytes start => by simp at start⟩
  | append_singleton outs outcome ih =>
    obtain ⟨before, last⟩ := List.forall_mem_append.mp empty
    obtain ⟨none, still, fits⟩ := ih before
    obtain rfl := last outcome (List.mem_singleton_self _)
    have tally : tally (outs ++ [some []]) = 0 := by rw [tally_append_some, none]; rfl
    refine ⟨tally, by rw [place_append, still, tally]; rfl, fits_append.mpr ⟨fits, ?_⟩⟩
    rintro _ ⟨⟩ some
    exact absurd rfl some

/-- All eight bytes come in and fit exactly when the receives before the last two bring nothing, none of
them failing. -/
theorem whole_reply_fits_iff (asked : Asked (outs ++ [outcome, last]))
    (all : tally (outs ++ [outcome, last]) = pointerSize) :
    Fits (outs ++ [outcome, last]) ↔ ∀ outcome ∈ outs, outcome = some [] := by
  rw [List.append_cons] at asked all ⊢
  obtain ⟨asked', low, high, room⟩ := asked_append.mp asked
  obtain ⟨before, low', high', room'⟩ := asked_append.mp asked'
  obtain ⟨bytes, rfl⟩ : ∃ bytes, last = some bytes := by
    cases last with
    | none =>
      rw [tally_append_none] at all
      omega
    | some bytes => exact ⟨bytes, rfl⟩
  rw [tally_append_some] at all
  have some : bytes ≠ [] := by
    rintro rfl
    simp only [List.length_nil] at all
    omega
  have moved := place_append outs outcome
  have start := place_nonneg before low'
  rw [fits_append]
  constructor
  · rintro ⟨_, last⟩
    have inside := last bytes rfl some
    exact (place_eq_zero before low' (by omega)).2
  · intro empty
    obtain ⟨none, still, fits⟩ := empty_fits empty
    refine ⟨fits_append.mpr ⟨fits, fun first same _ => ?_⟩, ?_⟩
    · have first := room' first same
      omega
    · rintro _ ⟨⟩ _
      omega

/-! The client gives up: some bytes fewer than eight, and the end of the stream. -/

/-- No receive has failed, and not all bytes have come. -/
def Quitting (outs : List (Option Bytes)) : Prop := none ∉ outs ∧ (arrived outs).length < pointerSize

/-- The loop ends on these pieces and the end of the stream behind them; the mutex is released, and no server
is added. -/
def EndsAfter (socket : Socket) (chunks : List Bytes) : Prop :=
  ∃ tr code n, Traces (recieveReply socket) tr code ∧
    outcomes tr <+: chunks.map some ++ List.replicate n (some []) ∧
    ⟨.unlock .tcpMutex, ()⟩ ∈ tr ∧ ∀ dns r, ⟨.act (.addServer dns), r⟩ ∉ tr

theorem quitting_missing {size : UInt8} (counted : size.toNat = (arrived before).length)
    (quitting : Quitting (before ++ outs)) : size.toNat < pointerSize := by
  have few := quitting.2
  rw [arrived_append, List.length_append] at few
  omega

/-- As long as the client has not sent everything, the router asks for more, or has written outside. -/
theorem quitting_requests {tr : List (Event platform.interface)} {op : platform.Call} {size : UInt8}
    (counted : size.toNat = (arrived before).length) (quitting : Quitting (before ++ outcomes tr))
    (requested : Requests (replyFrom socket (result, res, size)) tr op) :
    (∃ len, op = .recv socket len) ∨ op = .act .fault := by
  induction tr generalizing before result res size with
  | nil =>
    rcases (requests_part (quitting_missing counted quitting)).mp requested with ⟨_, rfl⟩ | ⟨_, _, none, _⟩
    · exact .inl ⟨_, rfl⟩
    · cases none
  | cons event tr ih =>
    rcases (requests_part (quitting_missing counted quitting)).mp requested with
      ⟨none, _⟩ | ⟨outcome, _, same, continued⟩
    · cases none
    · cases same
      rw [outcomes, List.append_cons] at quitting
      obtain ⟨bytes, rfl⟩ : ∃ bytes, outcome = some bytes := by
        cases outcome with
        | none => exact absurd quitting.1 (by simp)
        | some bytes => exact ⟨bytes, rfl⟩
      have few := quitting.2
      have sum : arrived (before ++ [some bytes]) = arrived before ++ bytes := by simp [arrived]
      rw [arrived_append, sum] at few
      simp only [List.length_append, pointerSize] at few
      have counted' : (size + UInt8.ofNat bytes.length).toNat = (arrived (before ++ [some bytes])).length := by
        rw [sum, List.length_append, UInt8.toNat_add, UInt8.toNat_ofNat']
        omega
      simp only [partAfter] at continued
      cases stored : store result res bytes with
      | none =>
        rw [stored] at continued
        exact .inr (requests_fault.mp continued).2
      | some result' =>
        rw [stored] at continued
        exact ih counted' quitting continued

theorem quitting_of_pieces {chunks : List Bytes} (few : chunks.flatten.length < pointerSize)
    (here : outs <+: chunks.map some ++ List.replicate n (some [])) : Quitting outs := by
  constructor
  · intro failed
    have member := here.subset failed
    simp at member
  · obtain ⟨rest, whole⟩ := here
    have all : arrived (chunks.map some ++ List.replicate n (some [])) = chunks.flatten := by
      simp [arrived, List.flatMap_map]
    rw [← all, ← whole, arrived_append, List.length_append] at few
    omega

/-- The loop is not left, so that what comes behind it is not asked for. -/
theorem not_released (traced : Traces (recieveReply socket) tr code) (quitting : Quitting (outcomes tr)) :
    ⟨.unlock .tcpMutex, ()⟩ ∉ tr := by
  intro released
  obtain ⟨before, after, rfl⟩ := List.append_of_mem released
  rw [outcomes_append] at quitting
  have early : Quitting ([] ++ outcomes before) := by
    refine ⟨fun failed => quitting.1 (List.mem_append_left _ failed), ?_⟩
    have few := quitting.2
    rw [arrived_append, List.length_append] at few
    exact Nat.lt_of_le_of_lt (Nat.le_add_right _ _) few
  rcases quitting_requests rfl early traced.requests with ⟨_, impossible⟩ | impossible
  · cases impossible
  · cases impossible

/-- A client that gives up keeps the router in the loop, with the mutex held. -/
theorem reply_never_ends (socket : Socket) (chunks : List Bytes) (few : chunks.flatten.length < pointerSize) :
    ¬ EndsAfter socket chunks := by
  rintro ⟨tr, code, n, traced, here, released, _⟩
  exact not_released traced (quitting_of_pieces few here) released

theorem reply_never_ends_half : ¬ EndsAfter ⟨0, .server⟩ [[1, 2, 3], [4]] :=
  reply_never_ends ⟨0, .server⟩ [[1, 2, 3], [4]] (by decide)

/-- The client closes without a byte. -/
theorem no_byte_never_ends : ¬ EndsAfter ⟨0, .server⟩ [] := by
  rintro ⟨tr, code, n, traced, here, released, _⟩
  exact not_released traced (quitting_of_pieces (by decide) here) released

end DnsServer
