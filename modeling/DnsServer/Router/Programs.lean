import DnsServer.Platform

/-! The programs of the router's threads. -/
namespace DnsServer
open Process Memory

def addDnsServer (dns : Server) : Proc UInt8 := do
  lock .mutex
  act (.addServer dns)
  unlock .mutex
  return 0

/-- Returns with both locks held when there is no such server. -/
def removeServer (dnsId : UInt8) : Proc UInt8 := do
  lock .mutex
  lock .tcpMutex
  let deleted : Bool ← act (.shiftOut dnsId)
  if !deleted then return 1
  act .shrinkServers
  unlock .mutex
  unlock .tcpMutex
  return 0

/-- One turn of the loop that sends the ports, each after an acknowledgement. -/
def sendPort (socket : Socket) (i : Nat) : Proc (Nat ⊕ UInt8) := do
  let router : Router ← act .router
  if router.serverCnt.toNat ≤ i then return .inr 0
  if (← recv socket 1).isNone then return .inr 1
  let router : Router ← act .router
  match router.servers[i]? with
  | none => fault
  | some server =>
    if !(← send socket [loByte server.tcpPortNum, hiByte server.tcpPortNum]) then return .inr 2
    return .inl (i + 1)

def sendPorts (socket : Socket) : Proc UInt8 := .loop 0 (sendPort socket) .ret

/-- The size of a pointer. -/
def pointerSize : Nat := 8

/-- What a receive stores at a place; no bytes are stored nowhere, also where the place lies outside. -/
def store (block : Bytes) (place : Nat) (bytes : Bytes) : Option Bytes :=
  if bytes = [] then some block else write block place bytes

/-- One turn of the loop that receives a pointer into `result`. The place for the next
bytes moves on by the whole count so far, and a failed receive counts as -1. -/
def recievePointerPart (socket : Socket) :
    Bytes × Nat × UInt8 → Proc (Bytes × Nat × UInt8 ⊕ Bytes) :=
  fun (result, res, size) => do
    if pointerSize ≤ size.toNat then return .inr result
    match ← recv socket (pointerSize - size.toNat) with
    | none => return .inl (result, res + (size - 1).toNat, size - 1)
    | some bytes =>
      match store result res bytes with
      | none => fault
      | some result =>
        let size := size + UInt8.ofNat bytes.length
        return .inl (result, res + size.toNat, size)

def recievePointer (socket : Socket) : Proc Bytes :=
  .loop (List.replicate pointerSize 0, 0, 0) (recievePointerPart socket) .ret

def checkTcpConnections : Proc UInt8 := do
  let newSocket ← createTcpConnections routerTcpPortNum
  lock .tcpMutex
  let router : Router ← act .router
  if !(← send newSocket [router.serverCnt]) then return 1
  let sent ← sendPorts newSocket
  if sent ≠ 0 then return sent
  let result ← recievePointer newSocket
  if result ≠ List.replicate pointerSize 0 then
    let dns : Server ← act (.object result)
    let _ ← addDnsServer dns
  unlock .tcpMutex
  close newSocket
  return 0

def checkIpListRequests : Proc UInt8 :=
  .loop () (fun _ => do
      let _ ← checkTcpConnections
      return .inl ())
    (.ret : UInt8 → Proc UInt8)

/-- The error code and the chosen server's id. Returns with the lock held when no
server is online. -/
def forwardRequest (message : Bytes) : Proc (UInt8 × Option UInt8) := do
  lock .mutex
  let router : Router ← act .router
  match chooseServer router.mode router.currServer router.serverCnt with
  | none => fault
  | some (chosenServer, currServer) =>
    act (.setCurrServer currServer)
    let router : Router ← act .router
    if router.serverCnt = 0 then return (1, none)
    match router.servers[chosenServer.toNat]? with
    | none => fault
    | some server =>
      let error : UInt8 ← act (.sendPacket server.portNum message)
      unlock .mutex
      return (error, some server.id.toUInt8)

/-! The health round. -/

def sendPings : Proc Unit :=
  .loop 0 (fun (i : Nat) => do
      let router : Router ← act .router
      if router.serverCnt.toNat ≤ i then return .inr ()
      let buffer ← act (.garbage maxDnsBytes)
      match craftMessage buffer.val true pingId [0] none with
      | none => fault
      | some (messageBytes, buffer) =>
        match router.servers[i]? with
        | none => fault
        | some server =>
          let _ ← act (.sendPacket server.portNum (buffer.take messageBytes.toNat))
          return .inl (i + 1))
    .ret

/-- Fills the array with the ids of the servers in rotation. -/
def listServers (offline : Bytes) : Proc Bytes :=
  .loop (offline, 0) (fun (state : Bytes × Nat) => do
      let (offline, i) := state
      let router : Router ← act .router
      if router.serverCnt.toNat ≤ i then return .inr offline
      match router.servers[i]? with
      | none => fault
      | some server =>
        match write offline i [server.id.toUInt8] with
        | none => fault
        | some offline => return .inl (offline, i + 1))
    .ret

/-- `offline[j - 1] = offline[j]` for `n` elements from `j` on. -/
def shiftOffline (offline : Bytes) (j : Nat) : Nat → Option Bytes
  | 0 => some offline
  | n + 1 => do
    let next ← offline[j]?
    let offline ← write offline (j - 1) [next]
    shiftOffline offline (j + 1) n

/-- The search for a pong among `n` elements from `i` on. What answered is shifted out, and the array
shrinks by an element. -/
def crossOut (pong : UInt8) (offline : Bytes) (cnt : UInt8) (i : Nat) : Nat → Option (Bytes × UInt8)
  | 0 => some (offline, cnt)
  | n + 1 => do
    let id ← offline[i]?
    if pong = id then
      let offline ← shiftOffline offline (i + 1) n
      return (offline.take (cnt - 1).toNat, cnt - 1)
    else crossOut pong offline cnt (i + 1) n

/-- The loop over the pongs: the first `cnt` elements are the servers yet to answer. -/
def crossOff (offline : Bytes) (cnt : UInt8) : Proc (Bytes × UInt8) := do
  let buffer ← act (.garbage 1)
  .loop (offline, cnt, buffer.val.headD 0) (fun (state : Bytes × UInt8 × UInt8) => do
      let (offline, cnt, last) := state
      match ← act .recvfrom with
      | none => return .inr (offline, cnt)
      | some bytes =>
        let pong : UInt8 := bytes.headD last
        match crossOut pong offline cnt 0 cnt.toNat with
        | none => fault
        | some (offline, cnt) => return .inl (offline, cnt, pong))
    .ret

def removeServers : List UInt8 → Proc Unit
  | [] => return
  | dnsId :: offline => do
    let _ ← removeServer dnsId
    removeServers offline

def queryResponseTime : Proc UInt8 := do
  let startingCnt := (← (act .router : Proc Router)).serverCnt
  sendPings
  let router : Router ← act .router
  let offline ← act (.garbage router.serverCnt.toNat)
  let cnt := (← (act .router : Proc Router)).serverCnt
  let offline ← listServers offline.val
  let (offline, cnt) ← crossOff offline cnt
  let router : Router ← act .router
  if startingCnt ≠ router.serverCnt then return 1
  if offline.length < cnt.toNat then fault
  removeServers (offline.take cnt.toNat)
  return 0

def checkServers : Proc UInt8 :=
  .loop () (fun _ => do
      let _ ← queryResponseTime
      return .inl ())
    (.ret : UInt8 → Proc UInt8)

/-! What crossing a server off does to the array. -/

theorem shiftOffline_fits (shifted : shiftOffline offline j n = some rest) : n = 0 ∨ j + n ≤ offline.length := by
  induction n generalizing offline j with
  | zero => exact .inl rfl
  | succ n ih =>
    simp only [shiftOffline, Option.bind_eq_bind, Option.bind_eq_some_iff] at shifted
    obtain ⟨next, read, stored, written, shifted⟩ := shifted
    have within := (List.getElem?_eq_some_iff.mp read).1
    have more := ih shifted
    rw [length_write written] at more
    omega

/-- Every element that is looked for lies in the array. -/
theorem crossOut_fits (crossed : crossOut pong offline cnt i n = some rest) : n = 0 ∨ i + n ≤ offline.length := by
  induction n generalizing i with
  | zero => exact .inl rfl
  | succ n ih =>
    simp only [crossOut, Option.bind_eq_bind, Option.bind_eq_some_iff] at crossed
    obtain ⟨id, read, crossed⟩ := crossed
    have within := (List.getElem?_eq_some_iff.mp read).1
    split at crossed
    · obtain ⟨_, shifted, _⟩ := Option.bind_eq_some_iff.mp crossed
      have more := shiftOffline_fits shifted
      omega
    · have more := ih crossed
      omega

/-- The shift drops the element before it and leaves the last one twice. -/
theorem shiftOffline_spec (before : Bytes) (gone : UInt8) (after extra : Bytes) :
    ∃ last, shiftOffline (before ++ gone :: (after ++ extra)) (before.length + 1) after.length =
      some (before ++ after ++ last :: extra) := by
  induction after generalizing before gone with
  | nil => exact ⟨gone, by simp [shiftOffline]⟩
  | cons next after ih =>
    have read : (before ++ gone :: (next :: after ++ extra))[before.length + 1]? = some next := by simp
    have stored : write (before ++ gone :: (next :: after ++ extra)) before.length [next] =
        some ((before ++ [next]) ++ next :: (after ++ extra)) := by
      have one := write_append before (show [gone].length = [next].length from rfl) (next :: after ++ extra)
      rw [List.singleton_append] at one
      simpa using one
    obtain ⟨last, shifted⟩ := ih (before ++ [next]) next
    refine ⟨last, ?_⟩
    simp only [List.length_cons, shiftOffline, read, Option.bind_eq_bind, Option.bind_some,
      Nat.add_sub_cancel, stored]
    rw [List.length_append, List.length_singleton] at shifted
    simpa using shifted

theorem crossOut_spec (pong cnt : UInt8) (before after extra : Bytes) :
    (pong ∈ after → ∃ last, crossOut pong (before ++ (after ++ extra)) cnt before.length after.length =
      some ((before ++ after.erase pong ++ last :: extra).take (cnt - 1).toNat, cnt - 1)) ∧
    (pong ∉ after → crossOut pong (before ++ (after ++ extra)) cnt before.length after.length =
      some (before ++ (after ++ extra), cnt)) := by
  induction after generalizing before with
  | nil => exact ⟨fun member => absurd member List.not_mem_nil, fun _ => rfl⟩
  | cons id after ih =>
    have read : (before ++ (id :: after ++ extra))[before.length]? = some id := by simp
    simp only [List.length_cons, crossOut, read, Option.bind_eq_bind, Option.bind_some]
    by_cases matched : pong = id
    · subst matched
      obtain ⟨last, shifted⟩ := shiftOffline_spec before pong after extra
      rw [if_pos rfl, List.cons_append, shifted]
      exact ⟨fun _ => ⟨last, by simp⟩, fun absent => absurd List.mem_cons_self absent⟩
    · rw [if_neg matched]
      obtain ⟨found, missing⟩ := ih (before ++ [id])
      rw [List.length_append, List.length_singleton, List.append_assoc, List.singleton_append] at found missing
      constructor
      · intro member
        obtain ⟨last, crossed⟩ := found ((List.mem_cons.mp member).resolve_left matched)
        refine ⟨last, ?_⟩
        rw [List.cons_append, crossed, List.erase_cons_tail (by simpa using Ne.symm matched)]
        simp
      · intro absent
        exact missing fun member => absent (List.mem_cons_of_mem _ member)

/-- The servers that have not answered: one with the pong's id goes, the others stay in order. -/
theorem crossOut_eq (fits : cnt.toNat ≤ offline.length) (pong : UInt8) :
    ∃ rest left, crossOut pong offline cnt 0 cnt.toNat = some (rest, left) ∧ left.toNat ≤ rest.length ∧
      rest.take left.toNat = (offline.take cnt.toNat).erase pong := by
  obtain ⟨found, missing⟩ := crossOut_spec pong cnt [] (offline.take cnt.toNat) (offline.drop cnt.toNat)
  rw [List.nil_append, List.take_append_drop, List.length_nil, List.length_take_of_le fits] at found missing
  by_cases member : pong ∈ offline.take cnt.toNat
  · obtain ⟨last, crossed⟩ := found member
    have positive := List.length_pos_of_mem member
    have fewer := List.length_erase_of_mem member
    rw [List.length_take_of_le fits] at positive fewer
    have count : (cnt - 1).toNat = cnt.toNat - 1 := by
      rw [UInt8.toNat_sub_of_le]
      · rfl
      · exact UInt8.le_iff_toNat_le.mpr positive
    have whole : (((offline.take cnt.toNat).erase pong) ++ last :: offline.drop cnt.toNat).take (cnt - 1).toNat =
        (offline.take cnt.toNat).erase pong := by
      rw [count, ← fewer, List.take_left]
    rw [List.nil_append, whole] at crossed
    refine ⟨_, _, crossed, by omega, List.take_of_length_le (by omega)⟩
  · exact ⟨_, _, missing member, fits, (List.erase_of_not_mem member).symm⟩

end DnsServer
