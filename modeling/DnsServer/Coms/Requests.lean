import DnsServer.Coms.Programs
import DnsServer.Process.Trace

/-! What the parts that the communication programs share may ask for, whatever is said of their requests. -/
namespace DnsServer
open Process Program

variable (ok : platform.Call → Prop) {s : Socket}

theorem recvUnchecked_asks (byte : ok (.recv s 1)) (unset : ok (.act (.garbage 1))) :
    (recvUnchecked s).Asks ok := by
  simp only [recvUnchecked, garbageByte, recv, act, request, bind_eq, pure_eq, call_bind, ret_bind]
  refine .call byte fun got => ?_
  split
  · trivial
  · exact .call unset fun _ => trivial

theorem recvByte_asks (byte : ok (.recv s 1)) (unset : ok (.act (.garbage 1))) : (recvByte s).Asks ok := by
  simp only [recvByte, garbageByte, recv, act, request, bind_eq, pure_eq, call_bind, ret_bind]
  refine .call byte fun got => ?_
  split
  · trivial
  · trivial
  · exact .call unset fun _ => trivial

theorem recievePort_asks (pair : ok (.recv s 2)) (byte : ok (.recv s 1)) (unset : ok (.act (.garbage 1))) :
    (recievePort s).Asks ok := by
  simp only [recievePort, garbageByte, recv, act, request, bind_eq, pure_eq, call_bind, ret_bind]
  refine .call pair fun got => ?_
  split
  · trivial
  · refine .call byte fun got => ?_
    split
    · trivial
    · exact .call unset fun _ => trivial
  · exact .call unset fun _ => .call unset fun _ => trivial

theorem recievePorts_asks (ack : ok (.send s [1])) (pair : ok (.recv s 2)) (byte : ok (.recv s 1))
    (unset : ok (.act (.garbage 1))) (n : Nat) (ports : List UInt16) : (recievePorts s n ports).Asks ok := by
  induction n generalizing ports with
  | zero => trivial
  | succ n ih =>
    simp only [recievePorts, send, request, bind_eq, pure_eq, call_bind, ret_bind]
    refine .call ack fun sent => ?_
    cases sent with
    | false => trivial
    | true => exact (recievePort_asks ok pair byte unset).bind fun port => ih _

theorem recieveText_asks (text : ok (.recv s textSize)) (outside : ok (.act .fault)) (stopOnClose : Bool)
    (buffer : Bytes) : (recieveText s stopOnClose buffer).Asks ok := by
  constructor
  · rintro ⟨buffer, count⟩
    simp only [recieveChunk, recv, request, bind_eq, pure_eq, call_bind, ret_bind]
    refine .call text fun got => ?_
    cases got with
    | none => trivial
    | some bytes =>
      simp only
      split
      · trivial
      · split
        · exact ⟨outside, by rintro ⟨⟩⟩
        · split <;> trivial
  · exact fun _ => trivial

theorem contactPeers_asks (u : Update) (connects : ∀ portNum, ok (.connect portNum)) (greets : ∀ q, ok (.send q [2]))
    (sends : ∀ q, ok (.send q u.text)) (byte : ∀ q, ok (.recv q 1)) (unset : ok (.act (.garbage 1)))
    (closes : ∀ q, ok (.close q)) (ownPort : UInt16) (fail : Int8) (i : Nat) (ports : List UInt16)
    (someStale someFresh : Bool) : (contactPeers u ownPort fail i ports someStale someFresh).Asks ok := by
  induction ports generalizing i someStale someFresh with
  | nil => trivial
  | cons port ports ih =>
    unfold contactPeers
    split
    · exact ih _ _ _
    split
    · exact ih _ _ _
    simp only [connectToTcp, send, recv, close, request, bind_eq, pure_eq, call_bind, ret_bind]
    refine .call (connects port) fun q => .call (greets q) fun _ => ?_
    refine (recvByte_asks ok (byte q) unset).bind fun ack => ?_
    split
    · trivial
    split
    · exact .call (closes q) fun _ => ih _ _ _
    refine .call (sends q) fun _ => .call (byte q) fun got => ?_
    split
    · trivial
    · exact .call (closes q) fun _ => ih _ _ _

theorem actuallyUpdate_asks (own : ∀ op : Op, ok (.act op)) (coms : UInt16) (remove : Bool) (domain ip : Bytes)
    (id : UInt8) : (actuallyUpdate coms remove domain ip id).Asks ok := by
  simp only [actuallyUpdate, act, request, bind_eq, pure_eq, call_bind, ret_bind]
  refine .call (own _) fun _ => ?_
  split
  · exact .call (own _) fun _ => .call (own _) fun _ => trivial
  · exact .call (own _) fun _ => .call (own _) fun _ => trivial

/-- What a request for the hosts file asks for on its connection. -/
def fetching (coms : UInt16) (s : Socket) : platform.Call → Prop
  | .send q bytes => q = s ∧ bytes = [1]
  | .recv q _ => q = s
  | .close q => q = s
  | .act (.insert c _ _) => c = coms
  | .act (.setVersionNum c _) => c = coms
  | .act (.garbage _) => True
  | .act .fault => True
  | _ => False

theorem recieveEntries_asks (s : Socket) (coms : UInt16) (n : Nat) (buffer : Bytes) :
    (recieveEntries s coms n buffer).Asks (fetching coms s) := by
  induction n generalizing buffer with
  | zero => trivial
  | succ n ih =>
    simp only [recieveEntries, send, act, close, request, bind_eq, pure_eq, call_bind, ret_bind]
    refine .call ⟨rfl, rfl⟩ fun sent => ?_
    cases sent with
    | false => trivial
    | true =>
      refine (recieveText_asks (fetching coms s) rfl trivial false buffer).bind fun text => ?_
      cases text with
      | none => exact .call rfl fun _ => trivial
      | some buffer =>
        simp only
        split
        · exact ⟨trivial, by rintro ⟨⟩⟩
        · exact .call rfl fun _ => ih (endDomain buffer)

/-- A peer is asked for its hosts file on the connection that is opened to it. -/
theorem requestHosts_asks (coms portNum : UInt16) :
    ∃ k, requestHosts coms portNum = @Program.call platform.interface _ (.act (.clear coms)) (fun _ =>
        @Program.call platform.interface _ (.connect portNum) k) ∧
      ∀ s, (k s).Asks (fetching coms s) := by
  simp only [requestHosts, connectToTcp, send, act, close, request, bind_eq, pure_eq, call_bind, ret_bind]
  refine ⟨_, rfl, fun s => .call ?_ fun sent => ?_⟩
  · exact ⟨rfl, rfl⟩
  cases sent with
  | false => trivial
  | true =>
    refine (recvUnchecked_asks (fetching coms s) rfl trivial).bind fun transCnt => .call trivial fun buffer => ?_
    refine (recieveEntries_asks s coms transCnt.toNat buffer.val).bind fun recieved => ?_
    split
    · trivial
    · refine .call ?_ fun sent => ?_
      · exact ⟨rfl, rfl⟩
      cases sent with
      | false => trivial
      | true =>
        refine (recvUnchecked_asks (fetching coms s) rfl trivial).bind fun ver => .call rfl fun _ => ?_
        exact .call rfl fun _ => trivial

end DnsServer
