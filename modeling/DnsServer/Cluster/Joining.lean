import DnsServer.Cluster.Sessions
import DnsServer.Coms.Sequential

/-! One call of `update_and_online` against a router and peers that never fail. -/
namespace DnsServer
open Process Program Memory

/-- What a peer sends under request code 1: each item waits for one more byte from the
requester. -/
def fileItems (c : Coms) : List Bytes :=
  [UInt8.ofNat c.ipHash.entries.length] ::
    (c.ipHash.entries.map (fun entry => entryText entry.1 entry.2) ++ [[c.versionNum]])

/-- `ready` is what the router has sent and `ports` what it is still to send; `offered`
and `offers` are the same for the peer of the open connection. -/
structure Joining where
  ready : List Bytes
  ports : List UInt16
  offered : List Bytes
  offers : List Bytes
  started : Bool

def joiningWorld (_ : Joining) : World
  | .garbage k => some (zeros k)
  | _ => none

def joiningNetwork : Network Joining
  | (m, n), .connect port =>
    if n.started then some (⟨1, .client⟩, m, { n with offered := [], offers := fileItems (m.coms port) })
    else some (⟨0, .client⟩, m, { n with ready := [[UInt8.ofNat n.ports.length]], started := true })
  | (m, n), .send socket _ =>
    if socket = ⟨0, .client⟩ then
      match n.ports with
      | [] => some (true, m, n)
      | port :: ports =>
        some (true, m, { n with ports, ready := n.ready ++ [[loByte port, hiByte port]] })
    else
      match n.offers with
      | [] => some (true, m, n)
      | item :: offers => some (true, m, { n with offers, offered := n.offered ++ [item] })
  | (m, n), .recv socket len =>
    if socket = ⟨0, .client⟩ then
      match n.ready with
      | [] => none
      | bytes :: ready => some (some bytes, m, { n with ready })
    else
      match n.offered with
      | [] => none
      | item :: rest => some (some (item.take len), m, { n with offered := leftover len item rest })
  | e, .close _ => some ((), e)
  | _, _ => none

abbrev joining : Handler platform.interface (Mem × Joining) := system joiningWorld joiningNetwork

/-- The end of the stream is taken for an acknowledgement too: an acknowledgement here is anything that is received. -/
theorem sendEntries_runs (socket : Socket) (p : UInt16) (m : Mem) (acks : List Bytes) (i : Nat) (s : Script)
    (rest : List (Option Bytes)) (remaining : i + acks.length = (m.coms p).ipHash.entries.length)
    (small : ∀ ack ∈ acks, ack.length ≤ 1) (arrives : s.incoming = acks.map some ++ rest) :
    Runs scripted (.loop i (sendEntry socket p) .ret) (m, s) 0
      (m, { s with
        incoming := rest
        sent := s.sent ++ ((m.coms p).ipHash.entries.drop i).map
          fun entry => entryText entry.1 entry.2 }) := by
  induction acks generalizing i s with
  | nil =>
    rw [List.length_nil] at remaining
    refine .loop ?_
    simp only [unroll, sendEntry, act, request, bind_eq, pure_eq, call_bind, ret_bind]
    refine .reply (m.coms p).ipHash (m, s) rfl ?_
    rw [List.getElem?_eq_none (by omega), List.drop_of_length_le (by omega)]
    obtain ⟨incoming, sent, locals⟩ := s
    cases arrives
    simp only [List.map_nil, List.append_nil]
    exact .ret
  | cons ack acks ih =>
    rw [List.length_cons] at remaining
    refine .loop ?_
    simp only [unroll, sendEntry, act, recv, send, request, bind_eq, pure_eq, call_bind, ret_bind]
    refine .reply (m.coms p).ipHash (m, s) rfl ?_
    have inside : i < (m.coms p).ipHash.entries.length := by omega
    rw [List.getElem?_eq_getElem inside, List.drop_eq_getElem_cons inside]
    let text := entryText (m.coms p).ipHash.entries[i].1 (m.coms p).ipHash.entries[i].2
    let s₁ : Script := { s with incoming := acks.map some ++ rest }
    let s₂ : Script := { s₁ with sent := s.sent ++ [text] }
    have fits : ∀ bytes, some ack = some bytes → bytes.length ≤ 1 := by
      rintro _ ⟨⟩
      exact small ack List.mem_cons_self
    have acknowledged : scripted (m, s) (.recv socket 1) = some (some ack, m, s₁) :=
      scripted_recv m s socket arrives fits
    refine .reply (some ack) (m, s₁) acknowledged (.reply true (m, s₂) rfl ?_)
    have more := ih (i + 1) s₂ (by omega) (fun ack member => small ack (List.mem_cons_of_mem _ member)) rfl
    simp only [s₂, s₁, List.append_assoc, List.singleton_append] at more
    rw [List.map_cons]
    exact more

/-- The peer's program sends the items of the file, one for each receive that does not fail. -/
theorem sendEntireFile_runs (socket : Socket) (p : UInt16) (m : Mem) (s : Script) (acks : List Bytes)
    (number : acks.length = (m.coms p).ipHash.entries.length + 1) (small : ∀ ack ∈ acks, ack.length ≤ 1)
    (arrives : s.incoming = acks.map some) :
    Runs scripted (sendEntireFile socket p) (m, s) 0
      (m, { s with incoming := [], sent := s.sent ++ fileItems (m.coms p) }) := by
  obtain rfl | ⟨acks, last, rfl⟩ := acks.eq_nil_or_concat
  · cases number
  rw [List.concat_eq_append, List.length_append, List.length_singleton] at number
  simp only [List.concat_eq_append, List.map_append, List.map_cons, List.map_nil] at arrives
  rw [List.concat_eq_append] at small
  let count := UInt8.ofNat (m.coms p).ipHash.entries.length
  let s₁ : Script := { s with sent := s.sent ++ [[count]] }
  have sends := sendEntries_runs socket p m acks 0 s₁ [some last] (by omega)
    (fun ack member => small ack (List.mem_append_left _ member)) arrives
  have fits : ∀ bytes, some last = some bytes → bytes.length ≤ 1 := by
    rintro _ ⟨⟩
    exact small last (List.mem_append_right _ List.mem_cons_self)
  simp only [sendEntireFile, act, send, recv, request, bind_eq, pure_eq, call_bind, ret_bind]
  refine .reply (m.coms p).ipHash (m, s) rfl (.reply true (m, s₁) rfl (.bind sends ?_))
  rw [if_neg (by simp)]
  refine .reply (some last) _ (scripted_recv m _ socket rfl fits) ?_
  refine .reply (m.coms p).versionNum _ rfl (.reply true _ rfl ?_)
  simp only [s₁, fileItems, List.drop_zero, List.append_assoc, List.singleton_append]
  exact .ret

/-- The requester stores each entry it is offered. -/
theorem recieveEntries_runs (x : UInt16) (entries : List (Sigma fun _ : Bytes => Bytes))
    (domain : ∀ entry ∈ entries, Clean entry.1) (ip : ∀ entry ∈ entries, (0 : UInt8) ∉ entry.2)
    (fits : ∀ entry ∈ entries, (entryText entry.1 entry.2).length ≤ textSize)
    (buffer : Bytes) (m : Mem) (n : Joining) (waiting : n.offered = [])
    (offers : n.offers = entries.map (fun entry => entryText entry.1 entry.2) ++ rest) :
    ∃ hash : Hash, Runs joining (recieveEntries ⟨1, .client⟩ x entries.length buffer) (m, n) 0
        (m.setComs x { m.coms x with ipHash := hash }, { n with offers := rest }) ∧
      hash.toFinmap = copyEntries (m.coms x).table entries := by
  induction entries generalizing buffer m n with
  | nil =>
    refine ⟨(m.coms x).ipHash, ?_, rfl⟩
    simp only [List.map_nil, List.nil_append] at offers
    obtain ⟨ready, ports, offered, offers', started⟩ := n
    cases offers
    rw [setComs_self]
    exact .ret
  | cons entry entries ih =>
    obtain ⟨d, a⟩ := entry
    obtain ⟨ready, ports, offered, offers', started⟩ := n
    cases waiting
    cases offers
    have text := entryText_terminated d a
    have small := fits _ List.mem_cons_self
    let offers₁ := entries.map (fun entry => entryText entry.1 entry.2) ++ rest
    let n₁ : Joining := ⟨ready, ports, [entryText d a], offers₁, started⟩
    let n₂ : Joining := ⟨ready, ports, [], offers₁, started⟩
    let m₁ := m.setComs x { m.coms x with ipHash := (m.coms x).ipHash.insert d a }
    have arrives : joining (m, n₁) (.recv ⟨1, .client⟩ textSize) =
        some (some (d ++ space :: a ++ [0]), m, n₂) := by
      rw [← text]
      change some (some ((entryText d a).take textSize), m, _) = _
      rw [List.take_of_length_le small, leftover, if_pos small]
    have reads := decodeEntry_text (domain _ List.mem_cons_self) (ip _ List.mem_cons_self)
      (buffer.drop ((d ++ space :: a).length + 1))
    obtain ⟨hash, ran, copied⟩ := ih (fun e member => domain e (List.mem_cons_of_mem _ member))
      (fun e member => ip e (List.mem_cons_of_mem _ member))
      (fun e member => fits e (List.mem_cons_of_mem _ member))
      (endDomain (d ++ space :: a ++ [0] ++ buffer.drop ((d ++ space :: a).length + 1))) m₁ n₂ rfl rfl
    refine ⟨hash, ?_, ?_⟩
    · simp only [List.length_cons, recieveEntries, send, request, bind_eq, pure_eq, call_bind, ret_bind]
      refine .reply true (m, n₁) rfl (.bind (runs_recieveText _ _ arrives) ?_)
      rw [text] at reads
      simp only [reads, act, request, call_bind, ret_bind]
      refine .reply () (m₁, n₂) rfl ?_
      simpa [m₁] using ran
    · rw [copied]
      simp only [m₁, setComs_same]
      change copyEntries ((m.coms x).ipHash.insert d a).toFinmap entries = _
      rw [← Finmap.insert_toFinmap]
      rfl

section
variable {m : Mem}

/-- The table that a server hands over: the number of entries it announces is a byte. -/
def Coms.handedTable (c : Coms) : Table :=
  copyEntries ∅ (c.ipHash.entries.take (c.ipHash.entries.length % 256))

/-- What is taken for its version: where more entries follow, the next one's text is in its place. -/
def Coms.handedVersion (c : Coms) : UInt8 :=
  match c.ipHash.entries[c.ipHash.entries.length % 256]? with
  | none => c.versionNum
  | some entry => (entryText entry.1 entry.2).headD 0

theorem handed_of_few {c : Coms} (few : c.ipHash.entries.length ≤ 255) :
    c.handedTable = c.table ∧ c.handedVersion = c.versionNum := by
  have whole : c.ipHash.entries.length % 256 = c.ipHash.entries.length := by omega
  constructor
  · rw [Coms.handedTable, whole, List.take_length]
    exact copyEntries_hash c.ipHash
  · rw [Coms.handedVersion, whole, List.getElem?_eq_none (Nat.le_refl _)]

/-- The item after the announced entries begins with the byte that is taken for the version. -/
theorem fileItems_split (c : Coms) :
    ∃ item rest, fileItems c = [UInt8.ofNat c.ipHash.entries.length] ::
        ((c.ipHash.entries.take (c.ipHash.entries.length % 256)).map (fun entry => entryText entry.1 entry.2) ++
          item :: rest) ∧
      item.take 1 = [c.handedVersion] := by
  have parts := List.take_append_drop (c.ipHash.entries.length % 256) c.ipHash.entries
  cases left : c.ipHash.entries.drop (c.ipHash.entries.length % 256) with
  | nil =>
    refine ⟨[c.versionNum], [], ?_, ?_⟩
    · rw [left, List.append_nil] at parts
      rw [parts]
      rfl
    · have none := List.getElem?_eq_none (List.drop_eq_nil_iff.mp left)
      rw [Coms.handedVersion, none]
      rfl
  | cons entry more =>
    refine ⟨entryText entry.1 entry.2, more.map (fun entry => entryText entry.1 entry.2) ++ [[c.versionNum]], ?_, ?_⟩
    · rw [left] at parts
      have mapped := congrArg (List.map fun entry => entryText entry.1 entry.2) parts
      rw [fileItems, ← mapped, List.map_append, List.map_cons, List.append_assoc]
      rfl
    · have next : c.ipHash.entries[c.ipHash.entries.length % 256]? = some entry := by
        rw [← List.head?_drop, left, List.head?_cons]
      rw [Coms.handedVersion, next]
      obtain ⟨domain, ip⟩ := entry
      cases domain with
      | nil => rfl
      | cons b domain => rfl

/-- A server whose texts read back hands over what it can, and nothing else changes. -/
theorem requestHosts_hands (x p : UInt16) (other : x ≠ p) (neat : Neat (m.coms p).ipHash.entries)
    (n : Joining) (started : n.started = true) :
    ∃ c n₁, Runs joining (requestHosts x p) (m, n) 0 (m.setComs x c, n₁) ∧
      c.table = (m.coms p).handedTable ∧ c.versionNum = (m.coms p).handedVersion := by
  obtain ⟨ready, ports, offered, offers, _⟩ := n
  cases started
  let entries := (m.coms p).ipHash.entries.take ((m.coms p).ipHash.entries.length % 256)
  let count := UInt8.ofNat (m.coms p).ipHash.entries.length
  have number : count.toNat = entries.length := by
    have announced : count.toNat = (m.coms p).ipHash.entries.length % 256 := UInt8.toNat_ofNat'
    have some : (m.coms p).ipHash.entries.length % 256 ≤ (m.coms p).ipHash.entries.length := Nat.mod_le _ _
    rw [announced, List.length_take, Nat.min_eq_left some]
  let m₀ := m.setComs x { m.coms x with ipHash := ∅ }
  have kept : m₀.coms p = m.coms p := setComs_other m other.symm _
  let texts := entries.map fun entry => entryText entry.1 entry.2
  obtain ⟨item, rest, items, version⟩ := fileItems_split (m.coms p)
  have nonempty : item ≠ [] := by
    rintro rfl
    cases version
  let n₁ : Joining := ⟨ready, ports, [], texts ++ item :: rest, true⟩
  obtain ⟨hash, ran, copied⟩ := recieveEntries_runs x entries
    (fun entry member => neat.domain entry (List.mem_of_mem_take member))
    (fun entry member => neat.ip entry (List.mem_of_mem_take member))
    (fun entry member => neat.fits entry (List.mem_of_mem_take member))
    (List.replicate textSize 0) m₀ n₁ rfl rfl
  let c : Coms := { m.coms x with ipHash := hash, versionNum := (m.coms p).handedVersion }
  let left := leftover 1 item []
  refine ⟨c, ⟨ready, ports, left, rest, true⟩, ?_, ?_, rfl⟩
  · simp only [requestHosts, connectToTcp, recvUnchecked, act, send, recv, close, request, bind_eq,
      pure_eq, call_bind, ret_bind]
    refine .reply () (m₀, ⟨ready, ports, offered, offers, true⟩) rfl ?_
    have connects : joining (m₀, ⟨ready, ports, offered, offers, true⟩) (.connect p) =
        some (⟨1, .client⟩, m₀, ⟨ready, ports, [], [count] :: (texts ++ item :: rest), true⟩) := by
      rw [← items, ← kept]
      rfl
    refine .reply ⟨1, .client⟩ _ connects ?_
    refine .reply true (m₀, ⟨ready, ports, [[count]], texts ++ item :: rest, true⟩) rfl ?_
    refine .reply (some [count]) (m₀, n₁) rfl ?_
    simp only [ret_bind]
    refine .reply (zeros textSize) (m₀, n₁) rfl ?_
    rw [number]
    refine .bind ran ?_
    rw [if_neg (by simp)]
    let m₁ := m₀.setComs x { m₀.coms x with ipHash := hash }
    refine .reply true (m₁, ⟨ready, ports, [item], rest, true⟩) rfl ?_
    refine .reply (some (item.take 1)) (m₁, ⟨ready, ports, left, rest, true⟩) rfl ?_
    simp only [version, ret_bind]
    refine .reply () (m.setComs x c, ⟨ready, ports, left, rest, true⟩) ?_ (.reply () _ rfl .ret)
    simp only [joining, system, Mem.perform, Option.map_some, m₁, m₀, setComs_same, setComs_setComs, c]
  · change hash.toFinmap = _
    rw [copied]
    simp only [m₀, setComs_same]
    rfl

/-- A server that can be copied is copied exactly, and nothing else changes. -/
theorem requestHosts_runs (x p : UInt16) (other : x ≠ p)
    (sendable : Sendable (m.coms p).ipHash.entries) (n : Joining) (started : n.started = true) :
    ∃ c n₁, Runs joining (requestHosts x p) (m, n) 0 (m.setComs x c, n₁) ∧
      c.table = (m.coms p).table ∧ c.versionNum = (m.coms p).versionNum := by
  obtain ⟨c, n₁, ran, table, version⟩ := requestHosts_hands x p other sendable.toNeat n started
  obtain ⟨wholeTable, wholeVersion⟩ := handed_of_few sendable.few
  exact ⟨c, n₁, ran, table.trans wholeTable, version.trans wholeVersion⟩

theorem joining_send (m : Mem) (n : Joining) (bytes : Bytes) :
    ∃ n₁, joining (m, n) (.send ⟨0, .client⟩ bytes) = some (true, m, n₁) := by
  obtain ⟨ready, ports, offered, offers, started⟩ := n
  cases ports with
  | nil => exact ⟨_, rfl⟩
  | cons port ports => exact ⟨_, rfl⟩

/-- The network before the call: the router announces `ports`. -/
def announceTo (ports : List UInt16) : Joining := ⟨[], ports, [], [], false⟩

/-- The call succeeds if some member hands over its table, on any network that serves the router's
socket like this one. -/
theorem updateAndOnline_asks {h : Handler platform.interface (Mem × Joining)} (x : Server)
    (alike : ∀ e op, usedSocket op = some ⟨0, .client⟩ → h e op = joining e op)
    (connects : ∀ ports, h (m, announceTo ports) (.connect routerTcpPortNum) =
      joining (m, announceTo ports) (.connect routerTcpPortNum)) (few : ports.length ≤ 255)
    (asked : Runs h (requestAny x.tcpPortNum ports) (m, ⟨[], [], [], [], true⟩) found (m₁, n)) :
    ∃ n₁, Runs h (updateAndOnline x) (m, announceTo ports) (if found then 0 else 1) (m₁, n₁) := by
  let count := UInt8.ofNat ports.length
  have number : count.toNat = ports.length := by
    simp only [count, UInt8.toNat_ofNat']
    omega
  have listed : Runs h (recievePorts ⟨0, .client⟩ ports.length [])
      (m, ⟨[], ports, [], [], true⟩) (some ports) (m, ⟨[], [], [], [], true⟩) := by
    let left ports : Mem × Joining := (m, ⟨[], ports, [], [], true⟩)
    refine runs_recievePorts (e := left) (fun port ports => ?_) ports []
    exact ⟨(m, ⟨[[loByte port, hiByte port]], ports, [], [], true⟩), alike _ _ rfl, alike _ _ rfl⟩
  have closes : ∀ n, h (m₁, n) (.close ⟨0, .client⟩) = some ((), m₁, n) := fun n => alike _ _ rfl
  simp only [updateAndOnline, connectToTcp, recvUnchecked, recv, send, close, request,
    bind_eq, pure_eq, call_bind, ret_bind]
  cases found with
  | false =>
    refine ⟨n, .reply _ _ (connects ports) (.reply (some [count]) (m, ⟨[], ports, [], [], true⟩) (alike _ _ rfl) ?_)⟩
    simp only [ret_bind, number]
    exact .bind listed (.bind asked (.reply () _ (closes n) .ret))
  | true =>
    obtain ⟨n₁, replies⟩ := joining_send m₁ n x.address
    refine ⟨n₁, .reply _ _ (connects ports) (.reply (some [count]) (m, ⟨[], ports, [], [], true⟩) (alike _ _ rfl) ?_)⟩
    simp only [ret_bind, number]
    exact .bind listed (.bind asked (.reply true _ ((alike _ _ rfl).trans replies) (.reply () _ (closes n₁) .ret)))

theorem updateAndOnline_runs (x : Server) (p : UInt16) (ports : List UInt16)
    (few : (p :: ports).length ≤ 255) (other : x.tcpPortNum ≠ p)
    (sendable : Sendable (m.coms p).ipHash.entries) :
    ∃ c n, Runs joining (updateAndOnline x) (m, announceTo (p :: ports)) 0
        (m.setComs x.tcpPortNum c, n) ∧
      c.table = (m.coms p).table ∧ c.versionNum = (m.coms p).versionNum := by
  obtain ⟨c, n, ran, table, version⟩ :=
    requestHosts_runs x.tcpPortNum p other sendable ⟨[], [], [], [], true⟩ rfl
  have supplied : Runs joining (requestAny x.tcpPortNum (p :: ports)) (m, ⟨[], [], [], [], true⟩) true
      (m.setComs x.tcpPortNum c, n) := by
    rw [requestAny, bind_eq]
    apply Runs.bind ran
    rw [if_pos rfl]
    exact .ret
  obtain ⟨n₁, ran⟩ := updateAndOnline_asks x (fun _ _ _ => rfl) (fun _ => rfl) few supplied
  exact ⟨c, n₁, ran, table, version⟩

/-- With no server in rotation there is none to copy. -/
theorem updateAndOnline_alone (x : Server) :
    ∃ n, Runs joining (updateAndOnline x) (m, announceTo []) 1 (m, n) := by
  have asked : Runs joining (requestAny x.tcpPortNum []) (m, ⟨[], [], [], [], true⟩) false
      (m, ⟨[], [], [], [], true⟩) := .ret
  exact updateAndOnline_asks x (fun _ _ _ => rfl) (fun _ => rfl) (Nat.zero_le _) asked

end

end DnsServer
