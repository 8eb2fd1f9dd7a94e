import DnsServer.Cluster.Conduct

/-! The threads of the servers and of the router follow the protocol. -/
namespace DnsServer
open Process Program Memory

section
variable {calls : Nat → ClusterCall} {object : Bytes → Server} {t : ClusterThread} {s : Position}

/-! The servers. -/

theorem recieveUpdate_obeys (own : s.ends socket = some (.updating p c)) (side : socket.side = .server)
    (held : s.cells p = some c) :
    (recieveUpdate p socket).Obeys (conduct calls object t)
      (fun _ s₁ => (∃ u c', s₁.ends socket = some (.texted p c u) ∧ s₁.cells p = some c' ∧
          c'.table = u.apply c.table ∧ c'.versionNum = u.id) ∨
        s₁.ends socket = some .declined) s := by
  simp only [recieveUpdate, act, send, close, request, bind_eq, pure_eq, call_bind, ret_bind]
  refine obeys_versionNum held fun _ => ?_
  refine obeys_send own (by rw [side]; rfl) .version (only_within held) (by rintro ⟨⟩) ?_
  simp only [Bool.not_true, Bool.false_eq_true, if_false]
  refine obeys_garbage fun buffer => ?_
  have knows : (s.speak socket (.version p c)).ends socket = some (.version p c) :=
    Function.update_self _ _ _
  refine obeys_recieveText buffer.val knows (by rw [side]; rfl) fun msg τ₁ said => ?_
  cases said with
  | text clean fits =>
    rename_i u
    obtain ⟨body, text⟩ := u.text_terminated
    have read := decodeUpdate_text u clean (buffer.val.drop (body.length + 1))
    rw [Update.Fits, text] at fits
    rw [text] at read
    refine .inl ⟨body, by rw [text], fits, ?_⟩
    simp only [read]
    have arrived : ((s.speak socket (.version p c)).hear socket (.texted p c u)).cells p = some c := by
      change Cells.plus _ (.only p c) p = _
      rw [plus_only, Function.update_self]
    have fits' : u.Fits := by rwa [Update.Fits, text]
    refine (actuallyUpdate_obeys u clean fits' arrived).mono ?_
    rintro _ _ ⟨c', rfl, table, version⟩
    exact .inl ⟨u, c', Function.update_self _ _ _, Function.update_self _ _ _, table, version⟩
  | decline =>
    refine .inr ⟨rfl, rfl, ?_⟩
    have ended : ((s.speak socket (.version p c)).hear socket .declined).ends socket = some .declined :=
      Function.update_self _ _ _
    exact obeys_close ended rfl (.inr ended)

theorem sendEntries_obeys (own : s.ends socket = some (.item p c 0)) (side : socket.side = .server)
    (held : s.cells p = some c) :
    (sendEntries socket p).Obeys (conduct calls object t)
      (fun sent s₁ => sent = 0 ∧ s₁.ends socket = some (.item p c c.ipHash.entries.length) ∧
        s₁.cells p = some c) s := by
  refine ⟨fun i s₁ => s₁.ends socket = some (.item p c i) ∧ s₁.cells p = some c ∧
    i ≤ c.ipHash.entries.length, ⟨own, held, Nat.zero_le _⟩, ?_⟩
  rintro i s₁ ⟨own, held, inside⟩
  refine ⟨trivial, ?_⟩
  simp only [sendEntry, act, recv, send, request, bind_eq, pure_eq, call_bind, ret_bind]
  refine obeys_ipHash held fun _ _ => ?_
  cases at_ : c.ipHash.entries[i]? with
  | none =>
    have past := List.getElem?_eq_none_iff.mp at_
    obtain rfl := Nat.le_antisymm inside past
    exact ⟨rfl, own, held⟩
  | some entry =>
    refine obeys_recv own (by rw [side]; rfl) fun msg τ₁ said => ?_
    cases said with
    | want =>
      refine ⟨by rintro _ ⟨⟩; rfl, ?_⟩
      simp only [Option.getD_some, Option.isNone_some, Bool.false_eq_true, if_false]
      have wanted : (s₁.hear socket (.wanted p c i)).ends socket = some (.wanted p c i) :=
        Function.update_self _ _ _
      refine obeys_send wanted (by rw [side]; rfl) (.entry at_) none_within (by rintro ⟨⟩) ?_
      simp only [Bool.not_true, Bool.false_eq_true, if_false]
      refine ⟨Function.update_self _ _ _, ?_, (List.getElem?_eq_some_iff.mp at_).1⟩
      change Cells.plus s₁.cells .none p = _
      rw [plus_none]
      exact held

theorem sendEntireFile_obeys (own : s.ends socket = some (.copying p c)) (side : socket.side = .server)
    (held : s.cells p = some c) (server : ∃ q, t = .server q) :
    (sendEntireFile socket p).Obeys (conduct calls object t)
      (fun _ s₁ => s₁.ends socket = some (.copied p c)) s := by
  simp only [sendEntireFile, act, recv, send, request, bind_eq, pure_eq, call_bind, ret_bind]
  refine obeys_ipHash held fun neat few => ?_
  refine obeys_send own (by rw [side]; rfl) (.total ⟨neat, few server⟩) none_within (by rintro ⟨⟩) ?_
  simp only [Bool.not_true, Bool.false_eq_true, if_false]
  have still : (s.speak socket (.item p c 0)).cells p = some c := held
  refine .bind ((sendEntries_obeys (Function.update_self _ _ _) side still).mono ?_)
  rintro _ s₁ ⟨rfl, own, held⟩
  rw [if_neg (by simp)]
  refine obeys_recv own (by rw [side]; rfl) fun msg τ₁ said => ?_
  cases said with
  | want =>
    refine ⟨by rintro _ ⟨⟩; rfl, ?_⟩
    simp only [Option.getD_some, Option.isNone_some, Bool.false_eq_true, if_false]
    have kept : (s₁.hear socket (.wanted p c c.ipHash.entries.length)).cells p = some c := by
      change Cells.plus s₁.cells .none p = _
      rw [plus_none]
      exact held
    refine obeys_versionNum kept fun _ => ?_
    refine obeys_send (Function.update_self _ _ _) (by rw [side]; rfl) .last (only_within kept) (by rintro ⟨⟩) ?_
    simp only [Bool.not_true, Bool.false_eq_true, if_false]
    exact Function.update_self _ _ _

theorem processNextRequest_obeys (p : ServerPort) :
    (processNextRequest p).Obeys (conduct calls object (.server p)) (fun _ _ => True) s := by
  simp only [processNextRequest, createTcpConnections, recvUnchecked, recv, close, request, bind_eq,
    pure_eq, call_bind, ret_bind]
  refine obeys_accept fun socket fresh side => ?_
  have greeted : greeting p = .called p := if_neg p.2
  rw [greeted]
  refine obeys_recv (Function.update_self _ _ _) (by rw [side]; rfl) fun msg τ₁ said => ?_
  cases said with
  | @update _ c =>
    refine ⟨by rintro _ ⟨⟩; rfl, ?_⟩
    simp only [Option.getD_some, ret_bind]
    rw [if_neg (by decide), if_pos trivial]
    refine .bind ((recieveUpdate_obeys (c := c) (Function.update_self _ _ _) side ?_).mono ?_)
    · change Cells.plus _ (.only _ c) _ = _
      rw [plus_only, Function.update_self]
    · rintro _ s₁ (⟨u, c', own, held, table, version⟩ | ended)
      · exact obeys_hang own (by rw [side]; rfl) (.apply table version) (only_within held) trivial
      · exact obeys_close ended rfl trivial
  | @copy _ c =>
    refine ⟨by rintro _ ⟨⟩; rfl, ?_⟩
    simp only [Option.getD_some, ret_bind]
    rw [if_pos trivial]
    refine .bind ((sendEntireFile_obeys (c := c) (Function.update_self _ _ _) side ?_ ⟨p, rfl⟩).mono ?_)
    · change Cells.plus _ (.only _ c) _ = _
      rw [plus_only, Function.update_self]
    · intro _ s₁ ended
      exact obeys_close ended rfl trivial

theorem checkHostsRequests_obeys (p : ServerPort) :
    (checkHostsRequests p).Obeys (conduct calls object (.server p)) (fun _ _ => True) s := by
  refine ⟨fun _ _ => True, trivial, fun _ s₁ _ => ⟨trivial, ?_⟩⟩
  exact .bind ((processNextRequest_obeys p).mono fun _ _ _ => trivial)

/-! The router. -/

/-- No session goes on beside the one at the socket. -/
def Position.IdleBeside (s : Position) (socket : Socket) : Prop :=
  ∀ other τ, other ≠ socket → s.ends other = some τ → τ.session = none

theorem idleBeside_update {s s₁ : Position} (idle : s.IdleBeside socket)
    (ends : s₁.ends = Function.update s.ends socket (some τ)) : s₁.IdleBeside socket := by
  intro other τ' beside own
  rw [ends, Function.update_of_ne beside] at own
  exact idle other τ' beside own

theorem idle_of_beside (idle : s.IdleBeside socket) (own : s.ends socket = some τ)
    (ended : τ.session = none) : s.Idle := by
  intro other τ' own'
  by_cases here : other = socket
  · subst here
    obtain rfl := Option.some.inj (own.symm.trans own')
    exact ended
  · exact idle other τ' here own'

/-- The thread is in a session of which the given ports are announced. -/
structure InSession (s : Position) (socket : Socket) (r : Router) (τ : Talk) : Prop where
  known : s.router = some r
  own : s.ends socket = some τ
  beside : s.IdleBeside socket

theorem InSession.speak (session : InSession s socket r τ) (τ₁ : Talk) :
    InSession (s.speak socket τ₁) socket r τ₁ :=
  ⟨session.known, Function.update_self _ _ _, idleBeside_update session.beside rfl⟩

theorem InSession.hear (session : InSession s socket r τ) (τ₁ : Talk) :
    InSession (s.hear socket τ₁) socket r τ₁ :=
  ⟨session.known, Function.update_self _ _ _, idleBeside_update session.beside rfl⟩

theorem ports_getElem? {r : Router} (inside : i < r.serverCnt.toNat) (at_ : r.servers[i]? = some server) :
    r.ports[i]? = some server.tcpPortNum := by
  rw [Router.ports, List.getElem?_map, Router.rotation, List.getElem?_take_of_lt inside, at_]
  rfl

theorem sendPorts_obeys (session : InSession s socket r (.listing r.ports coms 0))
    (side : socket.side = .server) (covered : r.Covered) :
    (sendPorts socket).Obeys (conduct calls object .router)
      (fun sent s₁ => sent = 0 ∧ InSession s₁ socket r (.listing r.ports coms r.ports.length)) s := by
  have count : r.ports.length = r.serverCnt.toNat := by
    rw [Router.ports, List.length_map, covered.length_rotation]
  refine ⟨fun i s₁ => InSession s₁ socket r (.listing r.ports coms i) ∧ i ≤ r.ports.length,
    ⟨session, Nat.zero_le _⟩, ?_⟩
  rintro i s₁ ⟨session, inside⟩
  refine ⟨trivial, ?_⟩
  simp only [sendPort, act, recv, send, request, bind_eq, pure_eq, call_bind, ret_bind]
  refine obeys_router session.known fun _ => ?_
  by_cases more : i < r.serverCnt.toNat
  · rw [if_neg (Nat.not_le.mpr more)]
    refine obeys_recv session.own (by rw [side]; rfl) fun msg τ₁ said => ?_
    cases said with
    | ack =>
      refine ⟨by rintro _ ⟨⟩; rfl, ?_⟩
      simp only [Option.getD_some, Option.isNone_some, Bool.false_eq_true, if_false]
      have acked := session.hear (.acked r.ports coms i)
      refine obeys_router acked.known fun _ => ?_
      cases at_ : r.servers[i]? with
      | none => exact obeys_fault
      | some server =>
        refine obeys_send acked.own (by rw [side]; rfl) (.port (ports_getElem? more at_)) none_within (by rintro ⟨⟩) ?_
        simp only [Bool.not_true, Bool.false_eq_true, if_false]
        refine ⟨acked.speak _, ?_⟩
        omega
    | reply => omega
    | giveUp => omega
  · rw [if_pos (Nat.not_lt.mp more)]
    obtain rfl : i = r.ports.length := by omega
    exact ⟨rfl, session⟩

/-- What the router has of the reply so far: nothing, or all of it in one piece. -/
def Replying (object : Bytes → Server) (s : Position) (socket : Socket) (r : Router)
    (coms : UInt16 → Coms) : Bytes × Nat × UInt8 → Prop
  | (result, res, size) =>
    result = List.replicate pointerSize 0 ∧ res = 0 ∧ size = 0 ∧
      (InSession s socket r (.listing r.ports coms r.ports.length) ∨ InSession s socket r .abandoned) ∨
    result.length = pointerSize ∧ size = 8 ∧ ∃ coms', InSession s socket r (.replied coms') ∧
      s.cells = .all coms' ∧ Listed (joined object r.ports result) coms'

theorem plus_all (cells : Cells) (coms : UInt16 → Coms) : cells.plus (.all coms) = .all coms := rfl

theorem recievePointer_obeys (session : InSession s socket r (.listing r.ports coms r.ports.length))
    (side : socket.side = .server) :
    (recievePointer socket).Obeys (conduct calls object .router)
      (fun pointer s₁ => pointer.length = pointerSize ∧ ∃ coms', InSession s₁ socket r (.replied coms') ∧
        s₁.cells = .all coms' ∧ Listed (joined object r.ports pointer) coms') s := by
  refine ⟨fun state s₁ => Replying object s₁ socket r coms state, .inl ⟨rfl, rfl, rfl, .inl session⟩, ?_⟩
  rintro ⟨result, res, size⟩ s₁ (⟨rfl, rfl, rfl, going⟩ | ⟨full, rfl, replied⟩)
  · refine ⟨trivial, ?_⟩
    simp only [recievePointerPart, recv, request, bind_eq, pure_eq, call_bind, ret_bind]
    rw [if_neg (by decide)]
    have nothing : store (List.replicate pointerSize (0 : UInt8)) 0 [] =
        some (List.replicate pointerSize 0) := rfl
    rcases going with session | gone
    · refine obeys_recv session.own (by rw [side]; rfl) fun msg τ₁ said => ?_
      cases said with
      | ack inside => exact absurd inside (Nat.lt_irrefl _)
      | reply whole listed =>
        rename_i pointer coms'
        refine ⟨by rintro _ ⟨⟩; exact Nat.le_of_eq whole, ?_⟩
        have stored : store (List.replicate pointerSize (0 : UInt8)) 0 pointer = some pointer := by
          have size : (List.replicate pointerSize (0 : UInt8)).length = pointer.length := by
            rw [List.length_replicate, whole]
          rw [store, if_neg (List.ne_nil_of_length_pos (by rw [whole]; exact Nat.succ_pos _))]
          simpa using write_append [] size []
        simp only [Option.getD_some, stored]
        refine .inr ⟨whole, ?_, coms', session.hear _, plus_all s₁.cells coms', listed⟩
        rw [whole]
        rfl
      | giveUp =>
        refine ⟨by rintro _ ⟨⟩, ?_⟩
        simp only [Option.getD_none, nothing]
        exact .inl ⟨rfl, rfl, rfl, .inr (session.hear _)⟩
    · refine obeys_recvAgain gone.own (by rw [side]; rfl) ?_
      simp only [nothing]
      exact .inl ⟨rfl, rfl, rfl, .inr gone⟩
  · refine ⟨trivial, ?_⟩
    simp only [recievePointerPart, pure_eq]
    rw [if_pos (by decide)]
    exact ⟨full, replied⟩

theorem checkTcpConnections_conduct (idle : s.Idle) :
    checkTcpConnections.Obeys (conduct calls object .router) (fun _ s₁ => s₁.Idle) s := by
  simp only [checkTcpConnections, createTcpConnections, send, lock, unlock, close, act, request,
    bind_eq, pure_eq, call_bind, ret_bind]
  refine obeys_accept fun socket fresh side => obeys_lockTcp fun r coms listed => ?_
  have greeted : greeting routerTcpPortNum = .asked := if_pos rfl
  rw [greeted]
  have asked : InSession { s.meet socket .asked with
      router := some r, cells := if ClusterThread.router = .router then .all coms else s.cells }
      socket r .asked := by
    refine ⟨rfl, Function.update_self _ _ _, idleBeside_update ?_ rfl⟩
    exact fun other τ _ own => idle other τ own
  refine obeys_router asked.known fun covered => ?_
  have count : r.ports.length = r.serverCnt.toNat := by
    rw [Router.ports, List.length_map, covered.length_rotation]
  have said : Speaks object .asked (some [r.serverCnt]) (.listing r.ports coms 0) := by
    have number : UInt8.ofNat r.ports.length = r.serverCnt := by
      rw [count, UInt8.ofNat_toNat]
    rw [← number]
    refine .count ?_ listed
    rw [count]
    exact Nat.le_of_lt_succ r.serverCnt.toNat_lt
  refine obeys_send asked.own (by rw [side]; rfl) said ?_ (fun _ => ⟨rfl, r, rfl, rfl⟩) ?_
  · intro p c held
    exact held
  simp only [Bool.not_true, Bool.false_eq_true, if_false]
  refine .bind ((sendPorts_obeys (asked.speak _) side covered).mono ?_)
  rintro _ s₁ ⟨rfl, session⟩
  rw [if_neg (by simp)]
  refine .bind ((recievePointer_obeys session side).mono ?_)
  rintro pointer s₂ ⟨_, coms', replied, all, listed⟩
  have finish : ∀ (s₃ : Position) (r' : Router), InSession s₃ socket r' (.replied coms') →
      s₃.cells = .all coms' → Listed r'.ports coms' →
      (@Program.call platform.interface UInt8 (.unlock Lock.tcpMutex) fun _ =>
        @Program.call platform.interface UInt8 (.close socket) fun _ => .ret 0).Obeys
          (conduct calls object .router) (fun _ s₁ => s₁.Idle) s₃ := by
    intro s₃ r' replied all listed
    have idle := idle_of_beside replied.beside replied.own rfl
    exact obeys_unlockTcp replied.known (fun _ => ⟨idle, coms', all, listed⟩)
      (obeys_close replied.own rfl idle)
  split
  · next given =>
    rw [joined, if_neg given] at listed
    refine obeys_object (.bind ?_)
    simp only [addDnsServer, lock, unlock, act, request, bind_eq, pure_eq, call_bind, ret_bind]
    refine obeys_mutex ?_
    have idle := idle_of_beside replied.beside replied.own rfl
    refine obeys_act ⟨rfl, by simp [replied.known], idle⟩ fun m m₁ _ knows _ acted => ?_
    obtain ⟨world, m', performed, rehashed⟩ := acted
    obtain ⟨r', added, done⟩ := Option.map_eq_some_iff.mp performed
    cases done
    cases rehashed
    obtain ⟨_, rotation, _⟩ := addServer_spec knows.covered (object pointer) added
    refine obeys_releaseMutex (finish _ r' ⟨?_, replied.own, replied.beside⟩ ?_ ?_)
    · simp [Position.refresh, replied.known]
    · have same := congrArg Position.cells knows.refresh
      rw [all] at same
      exact same
    · have ports : r'.ports = r.ports ++ [(object pointer).tcpPortNum] := by
        rw [Router.ports, rotation, List.map_append, knows.router replied.known]
        rfl
      rw [ports]
      exact listed
  · next none =>
    rw [joined, if_pos (not_not.mp none)] at listed
    exact finish s₂ r replied all listed

theorem checkIpListRequests_conduct (idle : s.Idle) :
    checkIpListRequests.Obeys (conduct calls object .router) (fun _ _ => True) s := by
  refine ⟨fun _ s₁ => s₁.Idle, idle, fun _ s₁ idle => ⟨trivial, ?_⟩⟩
  exact .bind ((checkTcpConnections_conduct idle).mono fun _ _ more => more)

/-! Removals. -/

theorem removeServer_conduct (dnsId : UInt8) (n : Nat) :
    (removeServer dnsId).Obeys (conduct calls object (.remover n)) (fun _ _ => True) s := by
  simp only [removeServer, lock, unlock, act, request, bind_eq, pure_eq, call_bind, ret_bind]
  refine obeys_mutex (obeys_lockTcp fun r coms _ => ?_)
  refine obeys_act ⟨by rintro ⟨⟩, rfl⟩ fun m m₁ deleted _ _ _ => ?_
  split
  · trivial
  refine obeys_act ⟨by rintro ⟨⟩, rfl⟩ fun m' m₂ _ _ _ _ => obeys_releaseMutex ?_
  exact obeys_unlockTcp rfl (by rintro ⟨⟩) trivial

end

end DnsServer
