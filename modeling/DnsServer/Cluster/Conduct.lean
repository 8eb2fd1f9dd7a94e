import DnsServer.Cluster.Custody

/-! What a thread that follows the protocol may do, request by request. -/
namespace DnsServer
open Process Program Memory

def Position.setCell (s : Position) (p : UInt16) (c : Coms) : Position :=
  { s with cells := Function.update s.cells p (some c) }

section
variable {calls : Nat → ClusterCall} {object : Bytes → Server} {t : ClusterThread} {α : Type}
  {post : α → Position → Prop} {s : Position}

theorem speaks_speaker (said : Speaks object τ msg τ₁) : τ.speaker ≠ none := by
  cases said <;> rintro ⟨⟩

theorem hung_speaker {τ : Talk} (hung : τ.hung = some d) : τ.speaker = none := by
  cases τ with
  | abandoned | applied | declined => rfl
  | _ => cases hung

theorem Position.Knows.refresh (knows : s.Knows object m) : s.refresh m = s := by
  obtain ⟨cells, router, ends⟩ := s
  simp only [Position.refresh, Position.mk.injEq, and_true]
  constructor
  · funext p
    cases held : cells p with
    | none => rfl
    | some c => exact congrArg some (knows.cells held)
  · cases router with
    | none => rfl
    | some r => exact congrArg some (knows.router rfl)

theorem Position.Knows.refresh_setComs (knows : s.Knows object m) (held : s.cells p = some c)
    (c' : Coms) : s.refresh (m.setComs p c') = s.setCell p c' := by
  have same := knows.refresh
  obtain ⟨cells, router, ends⟩ := s
  simp only [Position.refresh, Position.setCell, Position.mk.injEq, and_true] at same ⊢
  refine ⟨?_, same.2⟩
  funext q
  by_cases own : q = p
  · subst own
    rw [Function.update_self, setComs_same, show cells q = some c from held]
    rfl
  · rw [Function.update_of_ne own, setComs_other m own]
    exact congrFun same.1 q

/-! The rules for each request. -/

theorem obeys_connect {k : Socket → Proc α} (next : ∀ socket, s.ends socket = none →
      socket.side = .client → (k socket).Obeys (conduct calls object t) post (s.meet socket (greeting p))) :
    (@Program.call platform.interface α (.connect p) k).Obeys (conduct calls object t) post s := by
  refine ⟨.asked, trivial, ?_⟩
  rintro socket _ ⟨fresh, side, rfl⟩
  exact next socket fresh side

theorem obeys_accept {k : Socket → Proc α} (next : ∀ socket, s.ends socket = none →
      socket.side = .server → (k socket).Obeys (conduct calls object t) post (s.meet socket (greeting p))) :
    (@Program.call platform.interface α (.accept p) k).Obeys (conduct calls object t) post s := by
  refine ⟨.asked, trivial, ?_⟩
  rintro socket _ ⟨fresh, side, rfl⟩
  exact next socket fresh side

theorem obeys_send {k : Bool → Proc α} (own : s.ends socket = some τ)
    (turn : τ.speaker = some socket.side) (said : Speaks object τ (some bytes) τ₁)
    (within : τ₁.load.Within s.cells)
    (opens : τ = .asked → t = .router ∧ ∃ r, s.router = some r ∧ τ₁.session = some r.ports)
    (next : (k true).Obeys (conduct calls object t) post (s.speak socket τ₁)) :
    (@Program.call platform.interface α (.send socket bytes) k).Obeys (conduct calls object t) post s := by
  refine ⟨τ₁, ⟨τ, own, turn, said, within, opens⟩, ?_⟩
  rintro _ _ ⟨rfl, rfl⟩
  exact next

theorem obeys_recv {k : Option Bytes → Proc α} (own : s.ends socket = some τ)
    (turn : τ.speaker = some socket.side.other)
    (next : ∀ msg τ₁, Speaks object τ msg τ₁ → (∀ bytes ∈ msg, bytes.length ≤ len) ∧
      (k (some (msg.getD []))).Obeys (conduct calls object t) post (s.hear socket τ₁)) :
    (@Program.call platform.interface α (.recv socket len) k).Obeys (conduct calls object t) post s := by
  refine ⟨.asked, ⟨τ, own, .inl turn, fun bytes τ₁ said => (next _ τ₁ said).1 bytes rfl⟩, ?_⟩
  rintro _ _ ⟨τ', own', ⟨msg, τ₂, said, rfl, rfl⟩ | ⟨hung, _⟩⟩
  · obtain rfl := Option.some.inj (own.symm.trans own')
    exact (next msg τ₂ said).2
  · obtain rfl := Option.some.inj (own.symm.trans own')
    cases turn.symm.trans (hung_speaker hung)

/-- After the other side has hung up, a receive ends at once. -/
theorem obeys_recvAgain {k : Option Bytes → Proc α} (own : s.ends socket = some τ)
    (hung : τ.hung = some socket.side.other)
    (next : (k (some [])).Obeys (conduct calls object t) post s) :
    (@Program.call platform.interface α (.recv socket len) k).Obeys (conduct calls object t) post s := by
  have ended : ∀ {msg τ₁}, ¬ Speaks object τ msg τ₁ := fun said => speaks_speaker said (hung_speaker hung)
  refine ⟨.asked, ⟨τ, own, .inr hung, fun bytes τ₁ said => absurd said ended⟩, ?_⟩
  rintro _ _ ⟨τ', own', ⟨msg, τ₂, said, _⟩ | ⟨_, rfl, rfl⟩⟩
  · obtain rfl := Option.some.inj (own.symm.trans own')
    exact absurd said ended
  · exact next

theorem obeys_close {k : Unit → Proc α} (own : s.ends socket = some τ) (ended : τ.speaker = none)
    (next : (k ()).Obeys (conduct calls object t) post s) :
    (@Program.call platform.interface α (.close socket) k).Obeys (conduct calls object t) post s := by
  refine ⟨.asked, ⟨τ, own, .inl ended⟩, ?_⟩
  rintro ⟨⟩ _ ⟨τ', own', rfl⟩
  obtain rfl := Option.some.inj (own.symm.trans own')
  rw [if_pos ended]
  exact next

theorem obeys_hang {k : Unit → Proc α} (own : s.ends socket = some τ)
    (turn : τ.speaker = some socket.side) (said : Speaks object τ none τ₁)
    (within : τ₁.load.Within s.cells)
    (next : (k ()).Obeys (conduct calls object t) post (s.speak socket τ₁)) :
    (@Program.call platform.interface α (.close socket) k).Obeys (conduct calls object t) post s := by
  refine ⟨τ₁, ⟨τ, own, .inr ⟨turn, said, within⟩⟩, ?_⟩
  rintro ⟨⟩ _ ⟨τ', own', rfl⟩
  obtain rfl := Option.some.inj (own.symm.trans own')
  rw [if_neg (by rw [turn]; rintro ⟨⟩)]
  exact next

theorem obeys_act {op : Op} {k : op.Reply → Proc α} (allowed : s.Allows t op)
    (next : ∀ m m₁ r, s.Knows object m → promise calls m t op → clusterAction t m op r m₁ →
      (k r).Obeys (conduct calls object t) post (s.refresh m₁)) :
    (@Program.call platform.interface α (.act op) k).Obeys (conduct calls object t) post s := by
  refine ⟨.asked, allowed, ?_⟩
  rintro r _ ⟨m, m₁, knows, promised, acted, rfl⟩
  exact next m m₁ r knows promised acted

theorem obeys_fault : (fault : Proc α).Obeys (conduct calls object t) post s := by
  refine obeys_act trivial fun m m₁ r _ _ acted => ?_
  obtain ⟨world, m', performed, _⟩ := acted
  cases performed

theorem obeys_garbage {k : { bytes : Bytes // bytes.length = n } → Proc α}
    (next : ∀ bytes, (k bytes).Obeys (conduct calls object t) post s) :
    (@Program.call platform.interface α (.act (Op.garbage n)) k).Obeys (conduct calls object t) post s := by
  refine obeys_act trivial fun m m₁ r knows _ acted => ?_
  obtain ⟨world, m', performed, rehashed⟩ := acted
  obtain ⟨_, _, done⟩ := Option.map_eq_some_iff.mp performed
  cases done
  cases rehashed
  rw [knows.refresh]
  exact next _

theorem obeys_versionNum {k : UInt8 → Proc α} (held : s.cells p = some c)
    (next : (∀ socket τ ports, s.ends socket = some τ → τ.session = some ports →
        ∀ n, t = .caller n → (calls n).promise ports (.versionNum p)) →
      (k c.versionNum).Obeys (conduct calls object t) post s) :
    (@Program.call platform.interface α (.act (Op.versionNum p)) k).Obeys (conduct calls object t) post s := by
  refine obeys_act (by simp [Position.Allows, held]) fun m m₁ r knows promised acted => ?_
  obtain ⟨world, m', performed, rehashed⟩ := acted
  cases performed
  cases rehashed
  rw [knows.refresh, knows.cells held]
  refine next fun socket τ ports own session n caller => ?_
  subst caller
  rw [← knows.session own session]
  exact promised

theorem obeys_ipHash {k : Hash → Proc α} (held : s.cells p = some c)
    (next : Neat c.ipHash.entries → ((∃ q, t = .server q) → c.ipHash.entries.length ≤ 255) →
      (k c.ipHash).Obeys (conduct calls object t) post s) :
    (@Program.call platform.interface α (.act (Op.ipHash p)) k).Obeys (conduct calls object t) post s := by
  refine obeys_act (by simp [Position.Allows, held]) fun m m₁ r knows promised acted => ?_
  obtain ⟨world, m', performed, rehashed⟩ := acted
  cases performed
  cases rehashed
  have neat := knows.neat p
  rw [knows.refresh, knows.cells held]
  rw [knows.cells held] at neat
  refine next neat ?_
  rintro ⟨q, rfl⟩
  have few : (m.coms p).ipHash.entries.length ≤ 255 := promised
  rwa [knows.cells held] at few

theorem obeys_router {k : Router → Proc α} (known : s.router = some r)
    (next : r.Covered → (k r).Obeys (conduct calls object t) post s) :
    (@Program.call platform.interface α (.act Op.router) k).Obeys (conduct calls object t) post s := by
  refine obeys_act (by simp [Position.Allows, known]) fun m m₁ r' knows _ acted => ?_
  obtain ⟨world, m', performed, rehashed⟩ := acted
  cases performed
  cases rehashed
  have covered := knows.covered
  rw [knows.refresh, knows.router known]
  rw [knows.router known] at covered
  exact next covered

theorem obeys_object {k : Server → Proc α}
    (next : (k (object pointer)).Obeys (conduct calls object t) post s) :
    (@Program.call platform.interface α (.act (Op.object pointer)) k).Obeys (conduct calls object t) post s := by
  refine obeys_act trivial fun m m₁ r knows _ acted => ?_
  obtain ⟨world, m', performed, rehashed⟩ := acted
  cases performed
  cases rehashed
  rw [knows.refresh, knows.object]
  exact next

/-- An operation that changes one server's contents. -/
theorem obeys_write {op : Op} {k : op.Reply → Proc α} (held : s.cells p = some c)
    (allowed : s.Allows t op) (effect : Coms → Prop)
    (writes : ∀ m m₁ r, m.coms p = c → clusterAction t m op r m₁ → ∃ c', m₁ = m.setComs p c' ∧ effect c')
    (next : ∀ r c', effect c' → (k r).Obeys (conduct calls object t) post (s.setCell p c')) :
    (@Program.call platform.interface α (.act op) k).Obeys (conduct calls object t) post s := by
  refine obeys_act allowed fun m m₁ r knows _ acted => ?_
  obtain ⟨c', rfl, done⟩ := writes m m₁ r (knows.cells held) acted
  rw [knows.refresh_setComs held]
  exact next r c' done

theorem obeys_setVersionNum {k : Unit → Proc α} (held : s.cells p = some c)
    (next : (k ()).Obeys (conduct calls object t) post (s.setCell p { c with versionNum := v })) :
    (@Program.call platform.interface α (.act (Op.setVersionNum p v)) k).Obeys
      (conduct calls object t) post s := by
  refine obeys_write held (by simp [Position.Allows, held]) (· = { c with versionNum := v }) ?_ ?_
  · rintro m m₁ r rfl ⟨world, m', performed, rehashed⟩
    cases performed
    cases rehashed
    exact ⟨_, rfl, rfl⟩
  · rintro ⟨⟩ _ rfl
    exact next

theorem obeys_writeHostsFile {k : Unit → Proc α} (held : s.cells p = some c)
    (next : (k ()).Obeys (conduct calls object t) post (s.setCell p c.writeHostsFile)) :
    (@Program.call platform.interface α (.act (Op.writeHostsFile p)) k).Obeys
      (conduct calls object t) post s := by
  refine obeys_write held (by simp [Position.Allows, held]) (· = c.writeHostsFile) ?_ ?_
  · rintro m m₁ r rfl ⟨world, m', performed, rehashed⟩
    cases performed
    cases rehashed
    exact ⟨_, rfl, rfl⟩
  · rintro ⟨⟩ _ rfl
    exact next

theorem obeys_clear {k : Unit → Proc α} (held : s.cells p = some c)
    (next : (∀ socket τ ports, s.ends socket = some τ → τ.session = some ports →
        ∀ n, t = .caller n → (calls n).promise ports (.clear p)) →
      (k ()).Obeys (conduct calls object t) post (s.setCell p { c with ipHash := ∅ })) :
    (@Program.call platform.interface α (.act (Op.clear p)) k).Obeys (conduct calls object t) post s := by
  refine obeys_act (by simp [Position.Allows, held]) fun m m₁ r knows promised acted => ?_
  obtain ⟨world, m', performed, rehashed⟩ := acted
  cases performed
  cases rehashed
  rw [knows.refresh_setComs held, knows.cells held]
  refine next fun socket τ ports own session n caller => ?_
  subst caller
  rw [← knows.session own session]
  exact promised

/-- A table that is stored is there again, though it may iterate in another order. -/
theorem rehashed_setComs {m m₁ : Mem} {c : Coms}
    (rehashed : ∃ hash : Hash, hash.toFinmap = ((m.setComs p c).coms p).table ∧
      m₁ = (m.setComs p c).setComs p { (m.setComs p c).coms p with ipHash := hash }) :
    ∃ c' : Coms, m₁ = m.setComs p c' ∧ c'.table = c.table ∧ c'.versionNum = c.versionNum := by
  obtain ⟨hash, same, rfl⟩ := rehashed
  rw [setComs_same] at same
  rw [setComs_setComs, setComs_same]
  exact ⟨_, rfl, same, rfl⟩

theorem obeys_insert {k : Unit → Proc α} (held : s.cells p = some c) (neat : Neat [⟨d, ip⟩])
    (next : ∀ c' : Coms, c'.table = c.table.insert d ip → c'.versionNum = c.versionNum →
      (k ()).Obeys (conduct calls object t) post (s.setCell p c')) :
    (@Program.call platform.interface α (.act (Op.insert p d ip)) k).Obeys
      (conduct calls object t) post s := by
  refine obeys_write held ⟨by simp [held], neat⟩
    (fun c' => c'.table = c.table.insert d ip ∧ c'.versionNum = c.versionNum) ?_ ?_
  · rintro m m₁ r rfl ⟨world, m', performed, rehashed⟩
    cases performed
    obtain ⟨c', stored, table, version⟩ := rehashed_setComs rehashed
    exact ⟨c', stored, table.trans (Finmap.insert_toFinmap _ _ _).symm, version⟩
  · rintro ⟨⟩ c' ⟨table, version⟩
    exact next c' table version

theorem obeys_erase {k : Unit → Proc α} (held : s.cells p = some c)
    (next : ∀ c' : Coms, c'.table = c.table.erase d → c'.versionNum = c.versionNum →
      (k ()).Obeys (conduct calls object t) post (s.setCell p c')) :
    (@Program.call platform.interface α (.act (Op.erase p d)) k).Obeys
      (conduct calls object t) post s := by
  refine obeys_write held (by simp [Position.Allows, held])
    (fun c' => c'.table = c.table.erase d ∧ c'.versionNum = c.versionNum) ?_ ?_
  · rintro m m₁ r rfl ⟨world, m', performed, rehashed⟩
    cases performed
    obtain ⟨c', stored, table, version⟩ := rehashed_setComs rehashed
    exact ⟨c', stored, table.trans (Finmap.erase_toFinmap _ _).symm, version⟩
  · rintro ⟨⟩ c' ⟨table, version⟩
    exact next c' table version

theorem obeys_mutex {k : Unit → Proc α} (next : (k ()).Obeys (conduct calls object t) post s) :
    (@Program.call platform.interface α (.lock Lock.mutex) k).Obeys (conduct calls object t) post s := by
  refine ⟨.asked, trivial, ?_⟩
  rintro ⟨⟩ _ led
  rw [show _ = s from led]
  exact next

theorem obeys_releaseMutex {k : Unit → Proc α} (next : (k ()).Obeys (conduct calls object t) post s) :
    (@Program.call platform.interface α (.unlock Lock.mutex) k).Obeys (conduct calls object t) post s := by
  refine ⟨.asked, by rintro ⟨⟩, ?_⟩
  rintro ⟨⟩ _ led
  rw [show _ = s from led]
  exact next

@[simp] theorem setCell_cells (s : Position) (p : UInt16) (c : Coms) :
    (s.setCell p c).cells = Function.update s.cells p (some c) := rfl
@[simp] theorem setCell_router (s : Position) (p : UInt16) (c : Coms) : (s.setCell p c).router = s.router := rfl
@[simp] theorem setCell_ends (s : Position) (p : UInt16) (c : Coms) : (s.setCell p c).ends = s.ends := rfl
@[simp] theorem setCell_setCell (s : Position) (p : UInt16) (c d : Coms) :
    (s.setCell p c).setCell p d = s.setCell p d := by
  simp [Position.setCell]

theorem Update.neat (u : Update) (clean : u.Clean) (fits : u.Fits) : Neat [⟨u.domain, u.ip⟩] := by
  constructor
  · rintro _ (_ | ⟨_, ⟨⟩⟩)
    exact clean.domain
  · rintro _ (_ | ⟨_, ⟨⟩⟩)
    exact clean.ip.noZero
  · rintro _ (_ | ⟨_, ⟨⟩⟩)
    simp only [Update.Fits, Update.text, entryText, List.length_cons, List.length_append] at fits ⊢
    omega

theorem actuallyUpdate_obeys (u : Update) (clean : u.Clean) (fits : u.Fits) (held : s.cells p = some c) :
    (actuallyUpdate p u.remove u.domain u.ip u.id).Obeys (conduct calls object t)
      (fun _ s₁ => ∃ c', s₁ = s.setCell p c' ∧ c'.table = u.apply c.table ∧ c'.versionNum = u.id) s := by
  have stored : ∀ c : Coms, (s.setCell p c).cells p = some c := fun c => Function.update_self _ _ _
  have written : ∀ c' : Coms, c'.table = u.apply c.table → c'.versionNum = u.id →
      (@Program.call platform.interface UInt8 (.act (Op.writeHostsFile p)) fun _ => .ret 0).Obeys
        (conduct calls object t) (fun _ s₁ => ∃ c', s₁ = s.setCell p c' ∧ c'.table = u.apply c.table ∧
          c'.versionNum = u.id) (s.setCell p c') := by
    intro c' table version
    refine obeys_writeHostsFile (stored c') ⟨c'.writeHostsFile, ?_, table, version⟩
    rw [setCell_setCell]
  simp only [actuallyUpdate, act, request, bind_eq, pure_eq, call_bind, ret_bind]
  refine obeys_setVersionNum held ?_
  cases removes : u.remove with
  | true =>
    refine obeys_erase (stored _) fun c' table version => ?_
    rw [setCell_setCell]
    refine written c' ?_ version
    rw [Update.apply, if_pos removes]
    exact table
  | false =>
    refine obeys_insert (stored _) (u.neat clean fits) fun c' table version => ?_
    rw [setCell_setCell]
    refine written c' ?_ version
    rw [Update.apply, if_neg (by simp [removes])]
    exact table

theorem obeys_lockTcp {k : Unit → Proc α} (next : ∀ r coms, Listed r.ports coms →
      (k ()).Obeys (conduct calls object t) post
        { s with router := some r, cells := if t = .router then .all coms else s.cells }) :
    (@Program.call platform.interface α (.lock Lock.tcpMutex) k).Obeys (conduct calls object t) post s := by
  refine ⟨.asked, trivial, ?_⟩
  rintro ⟨⟩ s₁ led
  have led' : After calls object t s .asked (.lock Lock.tcpMutex) () s₁ := led
  simp only [After, reduceIte] at led'
  obtain ⟨r, coms, listed, rfl⟩ := led'
  exact next r coms listed

theorem obeys_unlockTcp {k : Unit → Proc α} (known : s.router = some r)
    (finished : t = .router → s.Idle ∧ ∃ coms, s.cells = .all coms ∧ Listed r.ports coms)
    (next : (k ()).Obeys (conduct calls object t) post { s with router := none, cells := .none }) :
    (@Program.call platform.interface α (.unlock Lock.tcpMutex) k).Obeys (conduct calls object t) post s := by
  refine ⟨.asked, fun _ => ⟨r, known, finished⟩, ?_⟩
  rintro ⟨⟩ s₁ led
  have led' : After calls object t s .asked (.unlock Lock.tcpMutex) () s₁ := led
  simp only [After, reduceIte] at led'
  rw [led']
  exact next

/-! The cells that pass with a message. -/

theorem minus_none (cells : Cells) : cells.minus .none = cells := rfl

theorem plus_none (cells : Cells) : cells.plus .none = cells := by
  funext p
  simp [Cells.plus, Cells.none]

theorem none_within {cells : Cells} : Cells.none.Within cells := by
  rintro _ _ ⟨⟩

theorem only_within {cells : Cells} (held : cells p = some c) : (Cells.only p c).Within cells := by
  intro q c' given
  by_cases same : q = p
  · subst same
    rw [Cells.only, Function.update_self] at given
    rw [held]
    exact given
  · rw [Cells.only, Function.update_of_ne same] at given
    cases given

theorem plus_only (cells : Cells) (p : UInt16) (c : Coms) :
    cells.plus (.only p c) = Function.update cells p (some c) := by
  funext q
  by_cases same : q = p
  · subst same
    simp [Cells.plus, Cells.only]
  · simp [Cells.plus, Cells.only, Cells.none, same]

/-- The loop for a text takes what is said next, if it is a text, or stops when it is to. -/
theorem obeys_recieveText {k : Option Bytes → Proc α} (buffer : Bytes) (own : s.ends socket = some τ)
    (turn : τ.speaker = some socket.side.other)
    (next : ∀ msg τ₁, Speaks object τ msg τ₁ →
      (∃ text, msg = some (text ++ [0]) ∧ (text ++ [0]).length ≤ textSize ∧
        (k (some (text ++ [0] ++ buffer.drop (text.length + 1)))).Obeys (conduct calls object t) post
          (s.hear socket τ₁)) ∨
      msg = none ∧ stopOnClose = true ∧ (k none).Obeys (conduct calls object t) post (s.hear socket τ₁)) :
    ((recieveText socket stopOnClose buffer).bind k).Obeys (conduct calls object t) post s := by
  obtain ⟨answered, first, text, closed⟩ := recieveText_turn socket stopOnClose buffer k
  refine Obeys.of_unroll trivial ?_
  change (Program.unroll (buffer, 0) (recieveChunk socket stopOnClose) k).Obeys _ post s
  rw [first]
  refine obeys_recv own turn fun msg τ₁ said => ?_
  rcases next msg τ₁ said with ⟨sent, rfl, fits, more⟩ | ⟨rfl, stops, more⟩
  · refine ⟨?_, ?_⟩
    · rintro _ ⟨⟩
      exact fits
    · rw [Option.getD_some, text]
      exact more
  · refine ⟨by rintro _ ⟨⟩, ?_⟩
    rw [Option.getD_none, closed stops]
    exact more

end

end DnsServer
