import DnsServer.Cluster.Sessions
import DnsServer.Process.Stream
import DnsServer.Router.Programs

/-! The list of the ports on a stream that may split every message: the router and its client come
through it in step. -/
namespace DnsServer
open Process Program Memory

/-- The rotation does not change during the session. -/
def steady (r : Router) : Side → (op : Op) → op.Reply → Prop
  | .server, .router, reply => reply = r
  | _, _, _ => True

/-- A client that has yet to connect, and the router. -/
def listSession (client : Proc UInt8) : Stream platform :=
  ⟨⟨client, [], false⟩, ⟨checkTcpConnections, [], false⟩, false⟩

/-- The router comes by itself to the first receive of the loop that reads the reply. -/
def AwaitsReply (r : Router) (p : Proc UInt8) : Prop :=
  ∃ next, Approaches (steady r .server)
    (unroll (List.replicate pointerSize 0, 0, 0) (recievePointerPart ⟨0, .server⟩) next) p

/-- The client goes on with the ports, and the router waits for the reply with nothing unread: what
the client says next is what the reply begins with. -/
structure Handover (r : Router) (k : Option (List UInt16) → Proc UInt8) (X : Stream platform) : Prop where
  client : X.client = ⟨k (some r.ports), [], false⟩
  inbox : X.server.inbox = []
  router : AwaitsReply r X.server.program

/-- The call opens a session with the router. -/
def SessionCall.Connects : SessionCall → Prop
  | .update _ _ _ fail => fail ≠ -1
  | .online _ _ => True

/-- The beginning of a session: the client learns the count, then the ports. -/
def learnPorts (k : Socket → Option (List UInt16) → Proc UInt8) : Proc UInt8 := do
  let s ← connectToTcp routerTcpPortNum
  let portCnt ← recvUnchecked s
  let ports ← recievePorts s portCnt.toNat []
  k s ports

theorem SessionCall.program_eq (c : SessionCall) (connects : c.Connects) : ∃ k, c.program = learnPorts k := by
  cases c with
  | update coms u ownPort fail =>
    simp only [SessionCall.program, updateHosts, if_neg (show ¬ fail = -1 from connects)]
    exact ⟨_, rfl⟩
  | online dnsServer pointer => exact ⟨_, rfl⟩

section
variable {r : Router} {ending : UInt8 → Proc UInt8}

/-- The router is about to wait: for the acknowledgement of the `i`th port, or for the reply. -/
def Awaits (r : Router) (ending : UInt8 → Proc UInt8) (i : Nat) (q : Proc UInt8) : Prop :=
  (i < r.ports.length ∧ ∃ next, q = @Program.call platform.interface _ (.recv ⟨0, .server⟩ 1) next ∧
    ∀ got, ∃ sent, Approaches (steady r .server) (@Program.call platform.interface _
      (.send ⟨0, .server⟩ [loByte (r.ports.getD i 0), hiByte (r.ports.getD i 0)]) sent) (next (some got)) ∧
      sent true = .loop (i + 1) (sendPort ⟨0, .server⟩) ending) ∨
  (i = r.ports.length ∧ ∃ next, q = unroll (List.replicate pointerSize 0, 0, 0) (recievePointerPart ⟨0, .server⟩) next)

theorem Awaits.recv (awaits : Awaits r ending i q) :
    ∃ len next, q = @Program.call platform.interface _ (.recv ⟨0, .server⟩ len) next := by
  rcases awaits with ⟨_, next, rfl, _⟩ | ⟨_, next, rfl⟩
  · exact ⟨_, _, rfl⟩
  · exact ⟨_, _, rfl⟩

/-- One turn of the router's loop, up to its receive and from there to its send. -/
theorem sendPort_approaches (ending : UInt8 → Proc UInt8) (more : i < r.serverCnt.toNat)
    (stored : r.servers[i]? = some server) :
    ∃ next, Approaches (steady r .server) (@Program.call platform.interface _ (.recv ⟨0, .server⟩ 1) next)
        (.loop i (sendPort ⟨0, .server⟩) ending) ∧
      ∀ got, ∃ sent, Approaches (steady r .server) (@Program.call platform.interface _
        (.send ⟨0, .server⟩ [loByte server.tcpPortNum, hiByte server.tcpPortNum]) sent) (next (some got)) ∧
        sent true = .loop (i + 1) (sendPort ⟨0, .server⟩) ending := by
  apply Exists.intro
  constructor
  · refine .turn (.ask (fun _ => Iff.rfl) ?_)
    simp only [bind_eq, pure_eq, ret_bind, if_neg (Nat.not_le.mpr more)]
    exact .here
  · intro got
    apply Exists.intro
    constructor
    · refine .ask (fun _ => Iff.rfl) ?_
      simp only [stored, send, request, call_bind, ret_bind]
      exact .here
    · rfl

theorem exists_awaits (covered : r.Covered) (few : i ≤ r.ports.length)
    (replies : AwaitsReply r (ending 0)) :
    ∃ q, Awaits r ending i q ∧
      Approaches (steady r .server) q (.loop i (sendPort ⟨0, .server⟩) ending) := by
  have length : r.ports.length = r.serverCnt.toNat := by
    rw [Router.ports, List.length_map, covered.length_rotation]
  rcases few.lt_or_eq with more | rfl
  · have stored : i < r.servers.length := by
      rw [length] at more
      exact more.trans_le covered
    have port : r.ports.getD i 0 = r.servers[i].tcpPortNum := by
      rw [length] at more
      simp [Router.ports, Router.rotation, List.getD_eq_getElem?_getD, more, stored]
    obtain ⟨next, acks, sends⟩ := sendPort_approaches ending (length ▸ more) (List.getElem?_eq_getElem stored)
    refine ⟨_, .inl ⟨more, next, rfl, ?_⟩, acks⟩
    rw [port]
    exact sends
  · obtain ⟨next, replies⟩ := replies
    refine ⟨_, .inr ⟨rfl, next, rfl⟩, .turn (.ask (fun _ => Iff.rfl) ?_)⟩
    simpa [length] using replies

/-- The client is about to ask for the `i`th port, or has all of them. -/
def AtPort (r : Router) (k : Option (List UInt16) → Proc UInt8) (ending : UInt8 → Proc UInt8) (i : Nat)
    (X : Stream platform) : Prop :=
  ∃ q p, Awaits r ending i q ∧ Approaches (steady r .server) q p ∧
    X = ⟨⟨(recievePorts ⟨0, .client⟩ (r.ports.length - i) (r.ports.take i)).bind k, [], false⟩,
      ⟨p, [], false⟩, true⟩

/-- A port comes in one piece or in two. -/
theorem recievePort_pieces (s : Socket) (f : UInt16 → Proc α) :
    ∃ next, (recievePort s).bind f = @Program.call platform.interface _ (.recv s 2) next ∧
      ∀ lo hi, next (some [lo, hi]) = f (word lo hi) ∧
        ∃ last, next (some [lo]) = @Program.call platform.interface _ (.recv s 1) last ∧
          last (some [hi]) = f (word lo hi) :=
  ⟨_, rfl, fun _ _ => ⟨rfl, _, rfl, rfl⟩⟩

/-- However a port is split, the client has it, and the router is about to wait again. -/
theorem port_recieved {f : UInt16 → Proc UInt8} {goal : Stream platform → Prop} (awaits : Awaits r ending i q)
    (toward : Approaches (steady r .server) q p) (port : UInt16)
    (reached : ∀ p, Approaches (steady r .server) q p → goal ⟨⟨f port, [], false⟩, ⟨p, [], false⟩, true⟩) :
    Inevitable (Stream.Moves (steady r)) goal
      ⟨⟨(recievePort ⟨0, .client⟩).bind f, [loByte port, hiByte port], false⟩, ⟨p, [], false⟩, true⟩ := by
  obtain ⟨next, asks, pieces⟩ := recievePort_pieces ⟨0, .client⟩ f
  obtain ⟨whole, last, half, rest⟩ := pieces (loByte port) (hiByte port)
  rw [word_bytes] at whole rest
  obtain ⟨len, waits, rfl⟩ := awaits.recv
  rw [asks]
  refine .ahead toward (Party.exists_step_recv (List.cons_ne_nil _ _) le_rfl) ?_
  intro p₁ e said l toward₁ step
  cases step with
  | @recv _ got _ _ _ _ parts some short =>
    match got, parts with
    | [], _ => exact absurd rfl some
    | [_], parts =>
      cases parts
      rw [half]
      refine .ahead toward₁ (Party.exists_step_recv (List.cons_ne_nil _ _) le_rfl) ?_
      intro p₂ e said l toward₂ step
      obtain ⟨rfl, rfl, rfl⟩ := Party.step_last step
      rw [rest]
      exact .here (reached p₂ toward₂)
    | [_, _], parts =>
      cases parts
      rw [whole]
      exact .here (reached p₁ toward₁)

/-- One turn of both loops. -/
theorem port_step (covered : r.Covered) (replies : AwaitsReply r (ending 0))
    (more : i < r.ports.length) (at_ : AtPort r k ending i X) :
    Inevitable (Stream.Moves (steady r)) (AtPort r k ending (i + 1)) X := by
  obtain ⟨q, p, awaits, toward, rfl⟩ := at_
  rcases awaits with ⟨_, next, rfl, sends⟩ | ⟨same, _⟩
  · have now : r.ports.length - i = r.ports.length - (i + 1) + 1 := by omega
    have listed : r.ports.take (i + 1) = r.ports.take i ++ [r.ports.getD i 0] := by
      rw [List.take_add_one, List.getD_eq_getElem?_getD, List.getElem?_eq_getElem more]
      rfl
    let rest (port : UInt16) : Proc UInt8 :=
      (recievePorts ⟨0, .client⟩ (r.ports.length - (i + 1)) (r.ports.take i ++ [port])).bind k
    obtain ⟨client, asks, _⟩ := recievePort_pieces ⟨0, .client⟩ rest
    have acks : (recievePorts ⟨0, .client⟩ (r.ports.length - i) (r.ports.take i)).bind k =
        @Program.call platform.interface _ (.send ⟨0, .client⟩ [1]) fun sent =>
          if !sent then k none else (recievePort ⟨0, .client⟩).bind rest := by
      rw [now]
      simp only [recievePorts, send, request, bind_eq, pure_eq, call_bind, ret_bind]
      congr 1
      funext sent
      cases sent with
      | false => rfl
      | true => exact bind_assoc _ _ _
    rw [acks]
    refine .ahead toward ⟨_, _, _, .send⟩ ?_
    intro p₁ e said l toward₁ step
    cases step
    -- The router has the acknowledgement: the client waits until the port has been sent.
    simp only [Bool.not_true, Bool.false_eq_true, if_false, Bool.or_false, asks]
    refine .served toward₁ (Party.exists_step_recv (List.cons_ne_nil _ _) le_rfl) fun e said l step => ?_
    obtain ⟨rfl, rfl, rfl⟩ := Party.step_last step
    obtain ⟨sent, toSend, more⟩ := sends [1]
    refine .served toSend ⟨_, _, _, .send⟩ fun e said l step => ?_
    cases step
    rw [more, ← asks]
    obtain ⟨q, awaits, toward⟩ := exists_awaits (i := i + 1) covered (by omega) replies
    refine port_recieved awaits toward _ fun p toward => ⟨q, p, awaits, toward, ?_⟩
    simp only [rest, listed]
  · omega

theorem ports_to_last (covered : r.Covered) (replies : AwaitsReply r (ending 0))
    (left : i + n = r.ports.length) (at_ : AtPort r k ending i X) :
    Inevitable (Stream.Moves (steady r)) (AtPort r k ending r.ports.length) X := by
  induction n generalizing i X with
  | zero =>
    rw [← left]
    exact .here at_
  | succ n ih => exact (port_step covered replies (by omega) at_).trans fun Y at_ => ih (by omega) at_

theorem AtPort.handover (at_ : AtPort r k ending r.ports.length X) : Handover r k X := by
  obtain ⟨q, p, awaits, toward, rfl⟩ := at_
  rcases awaits with ⟨more, _⟩ | ⟨_, next, rfl⟩
  · exact absurd more (lt_irrefl _)
  · constructor
    · simp only [Nat.sub_self, List.take_length]
      rfl
    · rfl
    · exact ⟨next, toward⟩

/-- The router's side of a session, in its parts. -/
theorem checkTcpConnections_eq : ∃ ending : Socket → UInt8 → Proc UInt8,
    checkTcpConnections = @Program.call platform.interface _ (.accept routerTcpPortNum) (fun s =>
      @Program.call platform.interface _ (.lock .tcpMutex) fun _ =>
      @Program.call platform.interface _ (.act .router) fun router =>
      @Program.call platform.interface _ (.send s [router.serverCnt]) fun sent =>
      if !sent then .ret 1 else .loop 0 (sendPort s) (ending s)) ∧
    ∀ s, ∃ next, ending s 0 = .loop (List.replicate pointerSize 0, 0, 0) (recievePointerPart s) next :=
  ⟨_, rfl, fun _ => ⟨_, rfl⟩⟩

/-- The connection, and the count of the ports. -/
theorem opening_counts (covered : r.Covered) (k : Socket → Option (List UInt16) → Proc UInt8) :
    ∃ ending, AwaitsReply r (ending 0) ∧
      Inevitable (Stream.Moves (steady r)) (AtPort r (k ⟨0, .client⟩) ending 0) (listSession (learnPorts k)) := by
  have length : r.serverCnt.toNat = r.ports.length := by
    rw [Router.ports, List.length_map, covered.length_rotation]
  obtain ⟨ending, router, pointer⟩ := checkTcpConnections_eq
  obtain ⟨next, pointer⟩ := pointer ⟨0, .server⟩
  have replies : AwaitsReply r (ending ⟨0, .server⟩ 0) := by
    refine ⟨next, ?_⟩
    rw [pointer]
    exact .turn .here
  refine ⟨ending ⟨0, .server⟩, replies, ?_⟩
  simp only [listSession, router, learnPorts, connectToTcp, recvUnchecked, recv, request, bind_eq, call_bind, ret_bind]
  -- The router cannot accept before the client has connected.
  refine .later ⟨_, .client (.connect rfl)⟩ ?_
  rintro _ (step | step)
  rotate_left
  · cases step with
    | accept _ linked => cases linked
  cases step
  refine .served .here ⟨_, _, _, .accept rfl rfl⟩ fun e said l step => ?_
  cases step
  refine .served (.lock (.ask (fun _ => Iff.rfl) .here)) ⟨_, _, _, .send⟩ fun e said l step => ?_
  cases step
  obtain ⟨q, awaits, toward⟩ := exists_awaits (i := 0) covered (Nat.zero_le _) replies
  obtain ⟨len, waits, rfl⟩ := awaits.recv
  refine .ahead toward (Party.exists_step_recv (List.cons_ne_nil _ _) le_rfl) ?_
  intro p₁ e said l toward₁ step
  obtain ⟨rfl, rfl, rfl⟩ := Party.step_last step
  refine .here ⟨_, _, awaits, toward₁, ?_⟩
  simp [length]

end

/-- Whatever pieces the stream makes of the ports, and whoever is ahead, no session stops before the
client has exactly the ports of the rotation and the router waits, with nothing unread, for the reply. -/
theorem ports_handed_over (c : SessionCall) (connects : c.Connects) (covered : r.Covered) :
    ∃ k, c.program = learnPorts k ∧
      Inevitable (Stream.Moves (steady r)) (Handover r (k ⟨0, .client⟩)) (listSession c.program) := by
  obtain ⟨k, program⟩ := c.program_eq connects
  obtain ⟨ending, replies, opening⟩ := opening_counts covered k
  refine ⟨k, program, ?_⟩
  rw [program]
  apply opening.trans
  intro X first
  apply (ports_to_last covered replies (Nat.zero_add _) first).trans
  intro Y last
  exact .here last.handover

/-- Two servers are online, the caller among them. -/
def pairRouter : Router :=
  ⟨.overload, [createDnsServer [1] 1 1050 1053, createDnsServer [2] 2 1050 1054], 2, 0⟩

theorem ports_handed_over_pair : pairRouter.ports = [1181, 1182] ∧
    ∃ k, callOnPair.program = learnPorts k ∧
      Inevitable (Stream.Moves (steady pairRouter)) (Handover pairRouter (k ⟨0, .client⟩))
        (listSession callOnPair.program) :=
  ⟨rfl, ports_handed_over callOnPair (show (5 : Int8) ≠ -1 by decide) (show 2 ≤ 2 from le_rfl)⟩

end DnsServer
