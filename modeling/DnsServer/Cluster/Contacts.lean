import DnsServer.Coms.Sequential

/-! One call of `update_hosts` against a router and peers of which each may fail. -/
namespace DnsServer
open Process Program

/-- What becomes of one contact. `last` is whether the receive that waits for the end of
the contact succeeds, as it does when the peer closes. -/
inductive Fate where
  /-- The receive of the version fails. -/
  | refused
  /-- The peer closes before it sends its version; `garbage` is what `ack` then holds. -/
  | closed (garbage : UInt8) (last : Bool)
  /-- The peer sends its version and never has the whole text. -/
  | silent (last : Bool)
  /-- The peer sends its version and gets the whole text. -/
  | served (last : Bool)
  deriving DecidableEq

namespace Fate

def last : Fate → Bool
  | .refused => false
  | .closed _ last => last
  | .silent last => last
  | .served last => last

/-- What the initiator takes for the version of a peer at `version`. -/
def ack (version : UInt8) : Fate → Option UInt8
  | .refused => none
  | .closed garbage _ => some garbage
  | .silent _ => some version
  | .served _ => some version

/-- What the initiator learns: that the peer is fresh or not, or `none` when it gives up. -/
def outcome (id version : UInt8) (fate : Fate) : Option Bool :=
  match fate.ack version with
  | none => none
  | some ack => if ack = id then some true else if fate.last then some false else none

/-- What a contact makes of the peer: `recieve_update` runs to its end only when the peer
is sent the text, which the initiator withholds from a fresh one, and gets all of it. -/
def deliver (u : Update) (c : Coms) : Fate → Coms
  | .served _ => if c.versionNum = u.id then c else c.actuallyUpdate u
  | _ => c

end Fate

/-- How far the current contact has got, `start` being before the router is connected. -/
inductive Stage where
  | start
  | request
  | version
  | text
  | last
  deriving DecidableEq

/-- `ready` is what the router has sent and `ports` what it is still to send; `acks` is
how many more sends to it succeed. `fates` are those of the contacts yet to be made. `held` says whether the
router's thread, which serves one session after another, is in one, of this call or of one before it. -/
structure Contacts where
  ready : List Bytes
  ports : List UInt16
  acks : Nat
  fates : List Fate
  peer : UInt16
  fate : Fate
  stage : Stage
  held : Bool

def contactsWorld (n : Contacts) : World
  | .garbage k =>
    let garbage := match n.fate with
      | .closed garbage _ => garbage
      | _ => 0
    some ⟨List.replicate k garbage, List.length_replicate⟩
  | _ => none

def routerSocket : Socket := ⟨0, .client⟩
def peerSocket : Socket := ⟨1, .client⟩

def contactsNetwork : Network Contacts
  | (m, n), .connect port =>
    if n.stage = .start then
      -- The connection is made in any case, and taken up when the thread is free.
      let ready := if n.held then [] else [[UInt8.ofNat n.ports.length]]
      some (routerSocket, m, { n with ready, held := true, stage := .last })
    else match n.fates with
      | [] => none
      | fate :: fates => some (peerSocket, m, { n with fates, fate, peer := port, stage := .request })
  | (m, n), .send socket bytes =>
    if socket = routerSocket then
      match n.acks, n.ports with
      | 0, _ => some (false, m, n)
      | acks + 1, [] => some (true, m, { n with acks, held := n.held && bytes.length != 8 })
      | acks + 1, port :: ports =>
        some (true, m, { n with acks, ports, ready := n.ready ++ [[loByte port, hiByte port]] })
    else match n.stage with
      | .request => some (true, m, { n with stage := .version })
      | .text =>
        match decodeUpdate bytes with
        | none => none
        | some u =>
          some (true, m.setComs n.peer (n.fate.deliver u (m.coms n.peer)), { n with stage := .last })
      | _ => none
  | (m, n), .recv socket _ =>
    if socket = routerSocket then
      match n.ready with
      | [] => none
      | bytes :: ready => some (some bytes, m, { n with ready })
    else match n.stage with
      | .version =>
        let answer := match n.fate with
          | .refused => none
          | .closed _ _ => some []
          | _ => some [(m.coms n.peer).versionNum]
        some (answer, m, { n with stage := .text })
      | .last => some (if n.fate.last then some [] else none, m, n)
      | _ => none
  | e, .close _ => some ((), e)
  | _, _ => none

abbrev contacts : Handler platform.interface (Mem × Contacts) := system contactsWorld contactsNetwork

/-- The ports that the loop contacts, from index `i` on. -/
def targets (ownPort : UInt16) (fail : Int8) : Nat → List UInt16 → List UInt16
  | _, [] => []
  | i, port :: ports =>
    if port = ownPort ∨ (i : Int) = fail.toInt then targets ownPort fail (i + 1) ports
    else port :: targets ownPort fail (i + 1) ports

/-- All contacts in turn, up to the one at which the initiator gives up. -/
def contactAll (u : Update) : List (UInt16 × Fate) → Bool → Bool → Mem → Option (Bool × Bool) × Mem
  | [], someStale, someFresh, m => (some (someStale, someFresh), m)
  | (p, fate) :: rest, someStale, someFresh, m =>
    let m₁ := m.setComs p (fate.deliver u (m.coms p))
    match fate.outcome u.id (m.coms p).versionNum with
    | none => (none, m₁)
    | some true => contactAll u rest someStale true m₁
    | some false => contactAll u rest true someFresh m₁

/-- The ports arrive in order while the acknowledgements last. -/
theorem recievePorts_runs (m : Mem) (n : Contacts) (idle : n.ready = []) (acc : List UInt16) :
    ∃ acks ports, Runs contacts (recievePorts routerSocket n.ports.length acc) (m, n)
      (if n.ports.length ≤ n.acks then some (acc ++ n.ports) else none)
      (m, { n with acks, ports }) ∧ (n.ports.length ≤ n.acks → acks + n.ports.length = n.acks ∧ ports = []) := by
  obtain ⟨ready, ports, acks, fates, peer, fate, stage, held⟩ := n
  simp only at idle
  subst idle
  induction ports generalizing acc acks with
  | nil => exact ⟨acks, [], by simpa using .ret, fun _ => ⟨rfl, rfl⟩⟩
  | cons port ports ih =>
    simp only [List.length_cons, recievePorts, send, request, bind_eq, pure_eq, call_bind, ret_bind]
    cases acks with
    | zero => exact ⟨0, port :: ports, .reply false _ rfl .ret, fun enough => absurd enough (Nat.not_succ_le_zero _)⟩
    | succ acks =>
      obtain ⟨acks', ports', ran, left⟩ := ih (acc ++ [port]) acks
      refine ⟨acks', ports', .reply true _ rfl ?_, fun enough => ?_⟩
      swap
      · obtain ⟨count, none⟩ := left (Nat.le_of_succ_le_succ enough)
        exact ⟨congrArg (· + 1) count, none⟩
      have arrives : Runs contacts (recievePort routerSocket)
          (m, ⟨[[loByte port, hiByte port]], ports, acks, fates, peer, fate, stage, held⟩) port
          (m, ⟨[], ports, acks, fates, peer, fate, stage, held⟩) := by
        simp only [recievePort, recv, request, bind_eq, pure_eq, call_bind, ret_bind]
        refine .reply (some [loByte port, hiByte port]) _ rfl ?_
        simp only [word_bytes]
        exact .ret
      refine .bind arrives ?_
      simpa using ran

theorem recvByte_runs (m : Mem) (n : Contacts) (waiting : n.stage = .version) :
    Runs contacts (recvByte peerSocket) (m, n) (n.fate.ack (m.coms n.peer).versionNum)
      (m, { n with stage := .text }) := by
  obtain ⟨ready, ports, acks, fates, peer, fate, stage, held⟩ := n
  simp only at waiting
  subst waiting
  simp only [recvByte, garbageByte, act, recv, request, bind_eq, pure_eq, call_bind, ret_bind]
  cases fate with
  | refused => exact .reply none _ rfl .ret
  | closed garbage last => exact .reply (some []) _ rfl (.reply ⟨[garbage], rfl⟩ _ rfl .ret)
  | silent last => exact .reply (some [(m.coms peer).versionNum]) _ rfl .ret
  | served last => exact .reply (some [(m.coms peer).versionNum]) _ rfl .ret

theorem deliver_fresh (u : Update) {c : Coms} {fate : Fate}
    (fresh : fate.ack c.versionNum = some u.id) : fate.deliver u c = c := by
  cases fate with
  | refused => rfl
  | closed garbage last => rfl
  | silent last => rfl
  | served last => exact if_pos (Option.some.inj fresh)

/-- How the session with the router stands. -/
def Contacts.session (n : Contacts) : List UInt16 × Nat × Bool := (n.ports, n.acks, n.held)

/-- The loop of `update_hosts` is `contactAll` on the ports it does not skip. -/
theorem contactPeers_runs (u : Update) (carried : u.Carried) (ownPort : UInt16) (fail : Int8)
    (i : Nat) (ports : List UInt16) (someStale someFresh : Bool) (m : Mem) (n : Contacts)
    (started : n.stage ≠ .start)
    (enough : (targets ownPort fail i ports).length ≤ n.fates.length) :
    ∃ n₁, Runs contacts (contactPeers u ownPort fail i ports someStale someFresh) (m, n)
      (contactAll u ((targets ownPort fail i ports).zip n.fates) someStale someFresh m).1
      ((contactAll u ((targets ownPort fail i ports).zip n.fates) someStale someFresh m).2, n₁) ∧
      n₁.session = n.session := by
  induction ports generalizing i someStale someFresh m n with
  | nil => exact ⟨n, .ret, rfl⟩
  | cons port ports ih =>
    unfold contactPeers targets
    unfold targets at enough
    by_cases own : port = ownPort
    · have skipped : port = ownPort ∨ (i : Int) = fail.toInt := .inl own
      rw [if_pos skipped] at enough ⊢
      rw [if_pos own]
      exact ih _ _ _ m n started enough
    by_cases failed : (i : Int) = fail.toInt
    · have skipped : port = ownPort ∨ (i : Int) = fail.toInt := .inr failed
      rw [if_pos skipped] at enough ⊢
      rw [if_neg own, if_pos failed]
      exact ih _ _ _ m n started enough
    have contacted : ¬ (port = ownPort ∨ (i : Int) = fail.toInt) := not_or.mpr ⟨own, failed⟩
    rw [if_neg contacted] at enough ⊢
    rw [if_neg own, if_neg failed]
    obtain ⟨ready, routerPorts, acks, fates, peer, fate', stage, held⟩ := n
    cases fates with
    | nil => simp at enough
    | cons fate fates =>
      simp only [List.length_cons, Nat.add_le_add_iff_right] at enough
      let n₁ : Contacts := ⟨ready, routerPorts, acks, fates, port, fate, .request, held⟩
      let n₂ : Contacts := { n₁ with stage := .version }
      let n₃ : Contacts := { n₁ with stage := .text }
      let n₄ : Contacts := { n₁ with stage := .last }
      let m₁ := m.setComs port (fate.deliver u (m.coms port))
      have connects : contacts (m, ⟨ready, routerPorts, acks, fate :: fates, peer, fate', stage, held⟩)
          (.connect port) = some (peerSocket, m, n₁) := by
        simp only [contacts, system, contactsNetwork]
        rw [if_neg started]
      have reads := carried.2 []
      rw [List.append_nil] at reads
      have sends : contacts (m, n₃) (.send peerSocket u.text) = some (true, m₁, n₄) := by
        simp only [contacts, system, contactsNetwork]
        rw [if_neg (by decide)]
        simp only [n₃, reads]
        rfl
      simp only [connectToTcp, send, recv, close, request, bind_eq, pure_eq, call_bind, ret_bind,
        List.zip_cons_cons, contactAll]
      have hears := recvByte_runs m n₂ rfl
      cases learned : fate.ack (m.coms port).versionNum with
      | none =>
        have result : fate.outcome u.id (m.coms port).versionNum = none := by
          simp only [Fate.outcome, learned]
        have refused : fate = .refused := by
          cases fate with
          | refused => rfl
          | closed garbage last => cases learned
          | silent last => cases learned
          | served last => cases learned
        subst refused
        rw [result]
        refine ⟨n₃, .reply _ _ connects (.reply true (m, n₂) rfl ?_), rfl⟩
        refine .bind hears ?_
        simp only [n₂, n₁, learned, Fate.deliver, setComs_self]
        exact .ret
      | some ack =>
        by_cases fresh : ack = u.id
        · have result : fate.outcome u.id (m.coms port).versionNum = some true := by
            simp only [Fate.outcome, learned, if_pos fresh]
          obtain ⟨n', rest, kept⟩ := ih (i + 1) someStale true m n₃ (by simp [n₃]) enough
          rw [result, deliver_fresh u (fresh ▸ learned), setComs_self]
          refine ⟨n', .reply _ _ connects (.reply true (m, n₂) rfl (.bind hears ?_)), kept⟩
          simp only [n₂, n₁, learned, if_pos fresh]
          exact .reply () (m, n₃) rfl rest
        · have waits : contacts (m₁, n₄) (.recv peerSocket 1) =
              some (if fate.last then some [] else none, m₁, n₄) := rfl
          cases ended : fate.last with
          | false =>
            have result : fate.outcome u.id (m.coms port).versionNum = none := by
              simp only [Fate.outcome, learned, if_neg fresh, ended, Bool.false_eq_true, if_false]
            rw [result]
            refine ⟨n₄, .reply _ _ connects (.reply true (m, n₂) rfl (.bind hears ?_)), rfl⟩
            simp only [n₂, n₁, learned, if_neg fresh]
            rw [ended] at waits
            exact .reply _ _ sends (.reply _ _ waits .ret)
          | true =>
            have result : fate.outcome u.id (m.coms port).versionNum = some false := by
              simp only [Fate.outcome, learned, if_neg fresh, ended, if_true]
            obtain ⟨n', rest, kept⟩ := ih (i + 1) true someFresh m₁ n₄ (by simp [n₄]) enough
            rw [result]
            refine ⟨n', .reply _ _ connects (.reply true (m, n₂) rfl (.bind hears ?_)), kept⟩
            simp only [n₂, n₁, learned, if_neg fresh]
            rw [ended] at waits
            exact .reply _ _ sends (.reply _ _ waits (.reply () (m₁, n₄) rfl rest))

/-- The network before the call: the router is free, and announces `ports`. -/
def announce (ports : List UInt16) (acks : Nat) (fates : List Fate) : Contacts where
  ready := []
  ports := ports
  acks := acks
  fates := fates
  peer := 0
  fate := .refused
  stage := .start
  held := false

/-- The code and the memory that a call of `update_hosts` on `self` ends with. -/
def updateAll (u : Update) (self ownPort : UInt16) (fail : Int8) (ports : List UInt16) (acks : Nat)
    (fates : List Fate) (m : Mem) : UInt8 × Mem :=
  if fail = -1 then (3, m)
  else if acks < ports.length then (1, m)
  else
    let thisStale := (m.coms self).versionNum != u.id
    match contactAll u ((targets ownPort fail 0 ports).zip fates) false false m with
    | (none, m) => (1, m)
    | (some (someStale, someFresh), m) =>
      (updateCode thisStale someStale someFresh,
        if thisStale then m.setComs self ((m.coms self).actuallyUpdate u) else m)

/-- The call leaves the router's thread in its session: it gives up, or its reply, which comes after an acknowledgement
for each port, does not get through. -/
def updateHolds (fail : Int8) (code : UInt8) (acks portCnt : Nat) : Bool :=
  fail != -1 && (code == 1 || decide (acks ≤ portCnt))

/-- The reply that ends the session. -/
theorem router_send (m : Mem) (n : Contacts) (done : n.ports = []) :
    ∃ sent n₁, contacts (m, n) (.send routerSocket [0, 0, 0, 0, 0, 0, 0, 0]) = some (sent, m, n₁) ∧
      n₁.held = (n.held && n.acks == 0) := by
  obtain ⟨ready, ports, acks, fates, peer, fate, stage, held⟩ := n
  simp only at done
  subst done
  cases acks with
  | zero => exact ⟨false, _, rfl, by cases held <;> rfl⟩
  | succ acks => exact ⟨true, _, rfl, by cases held <;> rfl⟩

theorem updateCode_ne_one (thisStale someStale someFresh : Bool) : updateCode thisStale someStale someFresh ≠ 1 := by
  revert thisStale someStale someFresh
  decide

/-- What the call computes, and whether it leaves the router's thread in the session. -/
theorem updateHosts_session (u : Update) (carried : u.Carried) (self ownPort : UInt16) (fail : Int8)
    (ports : List UInt16) (acks : Nat) (fates : List Fate) (m : Mem) (few : ports.length ≤ 255)
    (enough : (targets ownPort fail 0 ports).length ≤ fates.length) :
    ∃ n, Runs contacts (updateHosts self u.remove u.domain u.ip ownPort u.id fail)
      (m, announce ports acks fates) (updateAll u self ownPort fail ports acks fates m).1
      ((updateAll u self ownPort fail ports acks fates m).2, n) ∧
      n.held = updateHolds fail (updateAll u self ownPort fail ports acks fates m).1 acks ports.length := by
  unfold updateHosts updateAll updateHolds
  by_cases backdoor : fail = -1
  · rw [if_pos backdoor, if_pos backdoor, backdoor]
    exact ⟨_, .ret, rfl⟩
  rw [if_neg backdoor, if_neg backdoor, bne_iff_ne.mpr backdoor, Bool.true_and]
  simp only [connectToTcp, recvUnchecked, recv, send, act, close, request, bind_eq, pure_eq,
    call_bind, ret_bind]
  let n₁ : Contacts := ⟨[], ports, acks, fates, 0, .refused, .last, true⟩
  have count : (UInt8.ofNat ports.length).toNat = ports.length := by
    rw [UInt8.toNat_ofNat']
    omega
  obtain ⟨acks', ports', announced, left⟩ := recievePorts_runs m n₁ rfl []
  let n₂ : Contacts := { n₁ with acks := acks', ports := ports' }
  have connects : contacts (m, announce ports acks fates) (.connect routerTcpPortNum) =
      some (routerSocket, m, { n₁ with ready := [[UInt8.ofNat ports.length]] }) := rfl
  have counts : contacts (m, { n₁ with ready := [[UInt8.ofNat ports.length]] }) (.recv routerSocket 1) =
      some (some [UInt8.ofNat ports.length], m, n₁) := rfl
  by_cases enoughAcks : ports.length ≤ acks
  · rw [if_neg (Nat.not_lt.mpr enoughAcks)]
    rw [if_pos enoughAcks, List.nil_append] at announced
    obtain ⟨acksLeft, portsLeft⟩ := left enoughAcks
    change acks' + ports.length = acks at acksLeft
    obtain ⟨n₃, contacted, kept⟩ :=
      contactPeers_runs u carried ownPort fail 0 ports false false m n₂ (by simp [n₂, n₁]) enough
    have portsKept : n₃.ports = [] := (congrArg (·.1) kept).trans portsLeft
    have acksKept : n₃.acks = acks' := congrArg (·.2.1) kept
    have heldKept : n₃.held = true := congrArg (·.2.2) kept
    cases result : contactAll u ((targets ownPort fail 0 ports).zip n₂.fates) false false m with
    | mk flags m₁ =>
    rw [result] at contacted
    cases flags with
    | none =>
      refine ⟨n₃, .reply _ _ connects (.reply _ _ counts ?_), heldKept⟩
      simp only [ret_bind, count]
      exact .bind announced (.reply _ (m, n₂) rfl (.bind contacted .ret))
    | some flags =>
      obtain ⟨someStale, someFresh⟩ := flags
      let thisStale := (m.coms self).versionNum != u.id
      let m₂ := if thisStale then m₁.setComs self ((m₁.coms self).actuallyUpdate u) else m₁
      obtain ⟨sent, n₄, replies, ended⟩ := router_send m₂ n₃ portsKept
      refine ⟨n₄, .reply _ _ connects (.reply _ _ counts ?_), ?_⟩
      swap
      · rw [ended, heldKept, acksKept, Bool.true_and, beq_eq_decide, beq_eq_decide,
          decide_eq_false (updateCode_ne_one _ _ _), Bool.false_or]
        exact decide_eq_decide.mpr (by omega)
      simp only [ret_bind, count]
      refine .bind announced (.reply _ (m, n₂) rfl (.bind contacted ?_))
      have finish : ∀ code : UInt8, Runs contacts
          (.call (I := platform.interface) (.send routerSocket [0, 0, 0, 0, 0, 0, 0, 0]) fun _ =>
            .call (I := platform.interface) (.close routerSocket) fun _ => .ret code)
          (m₂, n₃) code (m₂, n₄) := fun code => .reply _ _ replies (.reply () (m₂, n₄) rfl .ret)
      cases stale : (m.coms self).versionNum != u.id with
      | true =>
        simp only [m₂, thisStale, stale, if_true] at finish ⊢
        exact .bind (runs_actuallyUpdate self u.remove u.domain u.ip u.id) (finish _)
      | false =>
        simp only [m₂, thisStale, stale, Bool.false_eq_true, if_false] at finish ⊢
        exact finish _
  · rw [if_pos (Nat.not_le.mp enoughAcks)]
    rw [if_neg enoughAcks] at announced
    refine ⟨n₂, .reply _ _ connects (.reply _ _ counts ?_), rfl⟩
    simp only [ret_bind, count]
    exact .bind announced .ret

theorem updateHosts_runs (u : Update) (carried : u.Carried) (self ownPort : UInt16) (fail : Int8)
    (ports : List UInt16) (acks : Nat) (fates : List Fate) (m : Mem) (few : ports.length ≤ 255)
    (enough : (targets ownPort fail 0 ports).length ≤ fates.length) :
    ∃ n, Runs contacts (updateHosts self u.remove u.domain u.ip ownPort u.id fail)
      (m, announce ports acks fates) (updateAll u self ownPort fail ports acks fates m).1
      ((updateAll u self ownPort fail ports acks fates m).2, n) := by
  obtain ⟨n, ran, _⟩ := updateHosts_session u carried self ownPort fail ports acks fates m few enough
  exact ⟨n, ran⟩

/-- While the router's thread is in another session, a call waits for the number of ports. -/
theorem updateHosts_waits {n : Contacts} {id : UInt8} (start : n.stage = .start) (held : n.held = true)
    (begins : fail ≠ -1) :
    ¬ Runs contacts (updateHosts self remove domain ip ownPort id fail) (m, n) code (m₁, n₁) := by
  intro ran
  unfold updateHosts at ran
  rw [if_neg begins] at ran
  simp only [connectToTcp, recvUnchecked, recv, request, bind_eq, pure_eq, call_bind, ret_bind] at ran
  obtain ⟨socket, _, connected, ran⟩ := runs_call_iff.mp ran
  simp only [system, contactsNetwork, start, held, if_true, Option.some.injEq, Prod.mk.injEq] at connected
  obtain ⟨rfl, rfl⟩ := connected
  obtain ⟨_, _, counted, _⟩ := runs_call_iff.mp ran
  cases counted

end DnsServer
