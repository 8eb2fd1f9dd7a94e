import DnsServer.Platform

/-! The programs of the servers' communication module. -/
namespace DnsServer
open Process Memory

def actuallyUpdate (coms : UInt16) (remove : Bool) (domain ip : Bytes) (id : UInt8) : Proc UInt8 := do
  act (.setVersionNum coms id)
  if remove then act (.erase coms domain)
  else act (.insert coms domain ip)
  act (.writeHostsFile coms)
  return 0

/-- One turn of the receive loop for a text: each chunk overwrites `buffer` from its start
while the position that is tested moves on. `none` leaves it after a failed receive; one
of no bytes counts as failed where `stopOnClose`. -/
def recieveChunk (socket : Socket) (stopOnClose : Bool) :
    Bytes × Nat → Proc (Bytes × Nat ⊕ Option Bytes) :=
  fun (buffer, count) => do
    match ← recv socket textSize with
    | none => return .inr none
    | some bytes =>
      if stopOnClose && bytes.isEmpty then return .inr none
      let buffer := bytes ++ buffer.drop bytes.length
      let count := count + bytes.length
      -- The tested byte is the one before `count`; it may lie outside the buffer.
      match if count = 0 then none else buffer[count - 1]? with
      | none => fault
      | some last => if last = 0 then return .inr (some buffer) else return .inl (buffer, count)

def recieveText (socket : Socket) (stopOnClose : Bool) (buffer : Bytes) : Proc (Option Bytes) :=
  .loop (buffer, 0) (recieveChunk socket stopOnClose) .ret

/-- The first turn of the loop: a text that arrives in one piece is received as it is, and
none is where the sender has closed. -/
theorem recieveText_turn (socket : Socket) (stopOnClose : Bool) (buffer : Bytes)
    (k : Option Bytes → Proc α) :
    ∃ next, Program.unroll (buffer, 0) (recieveChunk socket stopOnClose) k =
        @Program.call platform.interface α (.recv socket textSize) next ∧
      (∀ text, next (some (text ++ [0])) = k (some (text ++ [0] ++ buffer.drop (text.length + 1)))) ∧
      (stopOnClose = true → next (some []) = k none) := by
  simp only [Program.unroll, recieveChunk, recv, Program.request, Program.bind_eq, Program.pure_eq,
    Program.call_bind, Program.ret_bind]
  refine ⟨_, rfl, ?_, ?_⟩
  · intro text
    have count : 0 + (text ++ [0]).length ≠ 0 := by simp
    have last : (text ++ [0] ++ buffer.drop (text ++ [0]).length)[0 + (text ++ [0]).length - 1]? =
        some 0 := by
      simp
    have more : (text ++ [0]).isEmpty = false := by simp
    simp only [more, Bool.and_false, Bool.false_eq_true, if_false, count, last, if_true,
      Program.ret_bind]
    simp only [List.length_append, List.length_singleton]
  · rintro rfl
    rfl

def recieveUpdate (coms : UInt16) (socket : Socket) : Proc UInt8 := do
  let ack : UInt8 ← act (.versionNum coms)
  if !(← send socket [ack]) then return 1
  let buffer ← act (.garbage textSize)
  match ← recieveText socket true buffer.val with
  | none =>
    close socket
    return 1
  | some buffer =>
    match decodeUpdate buffer with
    | none => fault
    | some u => actuallyUpdate coms u.remove u.domain u.ip u.id

/-- One turn of the loop over the table, at its `i`th entry. -/
def sendEntry (socket : Socket) (coms : UInt16) (i : Nat) : Proc (Nat ⊕ UInt8) := do
  let hash : Hash ← act (.ipHash coms)
  match hash.entries[i]? with
  | none => return .inr 0
  | some entry =>
    if (← recv socket 1).isNone then return .inr 2
    if !(← send socket (entryText entry.1 entry.2)) then return .inr 3
    return .inl (i + 1)

def sendEntries (socket : Socket) (coms : UInt16) : Proc UInt8 :=
  .loop 0 (sendEntry socket coms) .ret

def sendEntireFile (socket : Socket) (coms : UInt16) : Proc UInt8 := do
  let hash : Hash ← act (.ipHash coms)
  let transCnt := UInt8.ofNat hash.entries.length
  if !(← send socket [transCnt]) then return 1
  let sent ← sendEntries socket coms
  if sent ≠ 0 then return sent
  if (← recv socket 1).isNone then return 4
  let versionNum : UInt8 ← act (.versionNum coms)
  if !(← send socket [versionNum]) then return 5
  return 0

def processNextRequest (coms : UInt16) : Proc UInt8 := do
  let newSocket ← createTcpConnections coms
  let requestCode ← recvUnchecked newSocket
  if requestCode = 1 then let _ ← sendEntireFile newSocket coms
  else if requestCode = 2 then let _ ← recieveUpdate coms newSocket
  close newSocket
  return 0

def checkHostsRequests (coms : UInt16) : Proc UInt8 :=
  .loop () (fun _ => do
      let _ ← processNextRequest coms
      return .inl ())
    (.ret : UInt8 → Proc UInt8)

/-- The loop over the announced entries; all of them share one buffer. -/
def recieveEntries (socket : Socket) (coms : UInt16) : Nat → Bytes → Proc UInt8
  | 0, _ => return 0
  | n + 1, buffer => do
    if !(← send socket [1]) then return 2
    match ← recieveText socket false buffer with
    | none =>
      close socket
      return 3
    | some buffer =>
      match decodeEntry buffer with
      | none => fault
      | some (domain, ip) =>
        act (.insert coms domain ip)
        recieveEntries socket coms n (endDomain buffer)

def requestHosts (coms portNum : UInt16) : Proc UInt8 := do
  act (.clear coms)
  let newSocket ← connectToTcp portNum
  if !(← send newSocket [1]) then return 1
  let transCnt ← recvUnchecked newSocket
  let buffer ← act (.garbage textSize)
  let recieved ← recieveEntries newSocket coms transCnt.toNat buffer.val
  if recieved ≠ 0 then return recieved
  if !(← send newSocket [1]) then return 4
  let ver ← recvUnchecked newSocket
  act (.setVersionNum coms ver)
  close newSocket
  return 0

/-- Two bytes into an uninitialised port number, the second asked for again when
only one came. -/
def recievePort (socket : Socket) : Proc UInt16 := do
  match ← recv socket 2 with
  | some (lo :: hi :: _) => return word lo hi
  | some [lo] =>
    match ← recv socket 1 with
    | some (hi :: _) => return word lo hi
    | _ => return word lo (← garbageByte)
  | _ => return word (← garbageByte) (← garbageByte)

/-- The ports announced by the router; `none` when an acknowledgement fails. -/
def recievePorts (socket : Socket) : Nat → List UInt16 → Proc (Option (List UInt16))
  | 0, ports => return some ports
  | n + 1, ports => do
    if !(← send socket [1]) then return none
    let port ← recievePort socket
    recievePorts socket n (ports ++ [port])

/-- The loop over the ports, at index `i`: whether some peer was stale and whether some
was fresh. `none` when a peer fails. -/
def contactPeers (u : Update) (ownPort : UInt16) (fail : Int8) :
    Nat → List UInt16 → Bool → Bool → Proc (Option (Bool × Bool))
  | _, [], someStale, someFresh => return some (someStale, someFresh)
  | i, port :: ports, someStale, someFresh => do
    if port = ownPort then contactPeers u ownPort fail (i + 1) ports someStale someFresh
    else if (i : Int) = fail.toInt then contactPeers u ownPort fail (i + 1) ports someStale someFresh
    else
      let newSocket ← connectToTcp port
      let _ ← send newSocket [2]
      match ← recvByte newSocket with
      | none => return none
      | some ack =>
        if ack = u.id then
          close newSocket
          contactPeers u ownPort fail (i + 1) ports someStale true
        else
          let _ ← send newSocket u.text
          match ← recv newSocket 1 with
          | none => return none
          | some _ =>
            close newSocket
            contactPeers u ownPort fail (i + 1) ports true someFresh

def updateCode (thisStale someStale someFresh : Bool) : UInt8 :=
  if thisStale && !someFresh then 0
  else if !thisStale && someStale then 9
  else if thisStale && someFresh then 8
  else if !thisStale && !someStale then 6
  else 10

def updateHosts (coms : UInt16) (remove : Bool) (domain ip : Bytes) (ownPort : UInt16) (id : UInt8)
    (fail : Int8) : Proc UInt8 := do
  if fail = -1 then return 3
  let routerSocket ← connectToTcp routerTcpPortNum
  let portCnt ← recvUnchecked routerSocket
  match ← recievePorts routerSocket portCnt.toNat [] with
  | none => return 1
  | some ports =>
    let versionNum : UInt8 ← act (.versionNum coms)
    let thisStale := versionNum != id
    match ← contactPeers ⟨remove, domain, ip, id⟩ ownPort fail 0 ports false false with
    | none => return 1
    | some (someStale, someFresh) =>
      if thisStale then let _ ← actuallyUpdate coms remove domain ip id
      let _ ← send routerSocket [0, 0, 0, 0, 0, 0, 0, 0]
      close routerSocket
      return updateCode thisStale someStale someFresh

/-- The loop that asks the ports in turn for the hosts file, until one supplies it. -/
def requestAny (coms : UInt16) : List UInt16 → Proc Bool
  | [] => return false
  | port :: ports => do
    if (← requestHosts coms port) = 0 then return true
    requestAny coms ports

def updateAndOnline (dnsServer : Server) : Proc UInt8 := do
  let newSocket ← connectToTcp routerTcpPortNum
  let portCnt ← recvUnchecked newSocket
  match ← recievePorts newSocket portCnt.toNat [] with
  | none => return 1
  | some ports =>
    if !(← requestAny dnsServer.tcpPortNum ports) then
      close newSocket
      return 1
    let _ ← send newSocket dnsServer.address
    close newSocket
    return 0

end DnsServer
