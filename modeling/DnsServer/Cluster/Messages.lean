import DnsServer.Coms.Requests
import DnsServer.Coms.Sequential

/-! The text of an update on its way: what is sent of it, what the receiver makes of it, and what a sequence
of them leaves. -/
namespace DnsServer
open Process Program Memory

/-- The bytes sent of `((remove ? "1" : "0") + " " + domain + " " + ip + " " + id_str).c_str()`. -/
def Update.sentText (u : Update) : Bytes :=
  let idStr : Bytes := [u.id]
  let text := (if u.remove then [49] else [48]) ++ [space] ++ cString u.domain ++ [space] ++ cString u.ip ++
    [space] ++ idStr
  (text ++ [0]).take ((cString u.domain).length + (cString u.ip).length + idStr.length + 5)

theorem Update.sentText_eq (u : Update) (clean : u.Clean) : u.sentText = u.text := by
  unfold Update.sentText
  rw [cString_of_clean clean.domain.noZero, cString_of_clean clean.ip.noZero, List.take_of_length_le]
  · cases u with
    | mk remove domain ip id => cases remove <;> simp [Update.text]
  · cases u with
    | mk remove domain ip id => cases remove <;> simp <;> omega

/-- Whatever is sent is an acknowledgement, a request for an update, the end of a session or this text. -/
def tells (text : Bytes) : platform.Call → Prop
  | .send _ bytes => bytes = [1] ∨ bytes = [2] ∨ bytes = [0, 0, 0, 0, 0, 0, 0, 0] ∨ bytes = text
  | _ => True

theorem contactPeers_tells (u : Update) (ownPort : UInt16) (fail : Int8) (i : Nat) (ports : List UInt16)
    (someStale someFresh : Bool) :
    (contactPeers u ownPort fail i ports someStale someFresh).Asks (tells u.text) := by
  apply contactPeers_asks (tells u.text) u (fun _ => trivial) _ _ (fun _ => trivial) trivial fun _ => trivial
  · exact fun _ => .inr (.inl rfl)
  · exact fun _ => .inr (.inr (.inr rfl))

theorem updateHosts_tells (coms : UInt16) (u : Update) (ownPort : UInt16) (fail : Int8) :
    (updateHosts coms u.remove u.domain u.ip ownPort u.id fail).Asks (tells u.text) := by
  unfold updateHosts
  split
  · trivial
  simp only [connectToTcp, send, close, act, request, bind_eq, pure_eq, call_bind, ret_bind]
  refine .call trivial fun q => ?_
  refine (recvUnchecked_asks (tells u.text) trivial trivial).bind fun _ => ?_
  refine (recievePorts_asks (tells u.text) (.inl rfl) trivial trivial trivial _ _).bind fun got => ?_
  cases got with
  | none => trivial
  | some ports =>
    refine .call trivial fun versionNum => (contactPeers_tells u ownPort fail 0 ports false false).bind fun flags => ?_
    cases flags with
    | none => trivial
    | some flags =>
      have ends : (@Program.call platform.interface _ (.send q [0, 0, 0, 0, 0, 0, 0, 0]) fun _ =>
          @Program.call platform.interface _ (.close q) fun _ =>
            .ret (updateCode (versionNum != u.id) flags.1 flags.2)).Asks (tells u.text) :=
        .call (.inr (.inr (.inl rfl))) fun _ => .call trivial fun _ => trivial
      simp only
      split
      · exact (actuallyUpdate_asks (tells u.text) (fun _ => trivial) coms u.remove u.domain u.ip u.id).bind fun _ => ends
      · exact ends

theorem recieveText_traces_cons {k : Option Bytes → Proc α} {rest : List (Event platform.interface)} :
    Traces ((recieveText socket stopOnClose buffer).bind k)
        (⟨.recv socket textSize, some (text ++ [0])⟩ :: rest) a ↔
      Traces (k (some (text ++ [0] ++ buffer.drop (text.length + 1)))) rest a := by
  obtain ⟨next, turn, arrives, _⟩ := recieveText_turn socket stopOnClose buffer k
  change Traces (.loop (buffer, 0) (recieveChunk socket stopOnClose) k) _ a ↔ _
  rw [traces_loop_iff, turn, traces_call_cons, arrives]

/-- The receiver of a text in one piece makes the update that it was made from. -/
theorem recieveUpdate_reads (u : Update) (carried : u.Carried) (coms : UInt16) (socket : Socket) (ack : UInt8)
    (locals : { bytes : Bytes // bytes.length = textSize }) (rest : List (Event platform.interface)) (code : UInt8) :
    Traces (recieveUpdate coms socket) (⟨.act (.versionNum coms), ack⟩ :: ⟨.send socket [ack], true⟩ ::
        ⟨.act (.garbage textSize), locals⟩ :: ⟨.recv socket textSize, some u.text⟩ :: rest) code ↔
      Traces (actuallyUpdate coms u.remove u.domain u.ip u.id) rest code := by
  obtain ⟨body, text⟩ := u.text_terminated
  have decoded := carried.2 (locals.val.drop (body.length + 1))
  rw [text] at decoded
  simp only [recieveUpdate, act, send, request, bind_eq, pure_eq, call_bind, ret_bind]
  rw [traces_call_cons, traces_call_cons]
  simp only [Bool.not_true, Bool.false_eq_true, if_false]
  rw [traces_call_cons, text, recieveText_traces_cons]
  simp only [decoded]

/-- Peers deliver the updates one after the other, each text in one piece. -/
inductive Delivered (p : UInt16) : List Update → Mem → Mem → Prop where
  | nil : Delivered p [] m m
  | cons (s : Script) : s.incoming = [some [2], some u.sentText] →
      Runs scripted (processNextRequest p) (m, s) code (m₁, s₁) → Delivered p us m₁ m₂ →
      Delivered p (u :: us) m m₂

/-- The last update that adds or removes the domain. -/
def lastMention (us : List Update) (domain : Bytes) : Option Update :=
  us.reverse.find? fun u => u.domain = domain

/-- What is told of the domain after the updates: nothing once it is removed, and what was before if it is
never mentioned. -/
def toldAfter (us : List Update) (domain : Bytes) (before : Option Bytes) : Option Bytes :=
  match lastMention us domain with
  | some u => u.entry
  | none => before

theorem lastMention_cons (u : Update) (us : List Update) (d : Bytes) :
    lastMention (u :: us) d = (lastMention us d).or (if u.domain = d then some u else none) := by
  rw [lastMention, List.reverse_cons, List.find?_append]
  by_cases same : u.domain = d <;> simp [lastMention, same]

theorem delivered_exists (carried : ∀ u ∈ us, u.Clean ∧ u.Fits) (m : Mem) : ∃ m', Delivered p us m m' := by
  induction us generalizing m with
  | nil => exact ⟨m, .nil⟩
  | cons u us ih =>
    obtain ⟨⟨clean, fits⟩, carried⟩ := List.forall_mem_cons.mp carried
    let s : Script := ⟨[some [2], some u.sentText], [], zeros⟩
    have ran := processNextRequest_updates p u (u.carried_of_clean clean fits) m s
      (by simp only [s, u.sentText_eq clean])
    obtain ⟨m', delivered⟩ := ih carried (m.setComs p ((m.coms p).actuallyUpdate u))
    exact ⟨m', .cons s rfl ran delivered⟩

/-- Each update is applied, so that the last one to name a domain decides about it. -/
theorem delivered_spec (carried : ∀ u ∈ us, u.Clean ∧ u.Fits) (delivered : Delivered p us m m') :
    (∀ d, translateIp (m'.coms p) d = toldAfter us (cString d) (translateIp (m.coms p) d)) ∧
    (m'.coms p).versionNum = (us.getLast?.map Update.id).getD (m.coms p).versionNum := by
  induction us generalizing m with
  | nil =>
    cases delivered
    exact ⟨fun _ => rfl, rfl⟩
  | cons u us ih =>
    obtain ⟨⟨clean, fits⟩, carried⟩ := List.forall_mem_cons.mp carried
    cases delivered with
    | cons s arrives ran rest =>
      rw [u.sentText_eq clean] at arrives
      obtain ⟨_, same⟩ := ran.unique (processNextRequest_updates p u (u.carried_of_clean clean fits) m s arrives)
      obtain ⟨rfl, _⟩ := Prod.mk.inj same
      obtain ⟨lookup, version⟩ := ih carried rest
      constructor
      · intro d
        have here := lookup_apply u (m.coms p).table (cString d)
        rw [← actuallyUpdate_table] at here
        rw [lookup, toldAfter, toldAfter, lastMention_cons, setComs_same]
        cases lastMention us (cString d) with
        | some later => rfl
        | none =>
          change (Coms.table _).lookup (cString d) = _
          rw [here]
          by_cases same : u.domain = cString d
          · rw [if_pos same, if_pos same.symm]
            rfl
          · rw [if_neg same, if_neg (Ne.symm same)]
            rfl
      · rw [version, setComs_same, List.getLast?_cons]
        cases us.getLast? <;> rfl

/-- The bytes that are sent of an update are its text, whoever gets them in one piece carries out the same
update, and after any number of them the last one to name a domain tells its address. -/
theorem updates_read_back (u : Update) (us : List Update) (clean : u.Clean) (fits : u.Fits)
    (carried : ∀ u ∈ us, u.Clean ∧ u.Fits) (p : UInt16) :
    (∀ ownPort fail, (updateHosts p u.remove u.domain u.ip ownPort u.id fail).Asks (tells u.sentText)) ∧
    (∀ socket ack locals rest code, Traces (recieveUpdate p socket)
        (⟨.act (.versionNum p), ack⟩ :: ⟨.send socket [ack], true⟩ :: ⟨.act (.garbage textSize), locals⟩ ::
          ⟨.recv socket textSize, some u.sentText⟩ :: rest) code ↔
      Traces (actuallyUpdate p u.remove u.domain u.ip u.id) rest code) ∧
    ∀ m, (∃ m', Delivered p us m m') ∧ ∀ m', Delivered p us m m' →
      (∀ d, translateIp (m'.coms p) d = toldAfter us (cString d) (translateIp (m.coms p) d)) ∧
      (m'.coms p).versionNum = (us.getLast?.map Update.id).getD (m.coms p).versionNum := by
  rw [u.sentText_eq clean]
  refine ⟨updateHosts_tells p u, recieveUpdate_reads u (u.carried_of_clean clean fits) p, fun m => ?_⟩
  exact ⟨delivered_exists carried m, fun m' delivered => delivered_spec carried delivered⟩

/-- An addition under the id 0 and, after it, one under the code of a space. -/
theorem updates_read_back_new_domain :
    (∀ ownPort fail, (updateHosts 1178 false (addNewDomain 0).domain (addNewDomain 0).ip ownPort 0 fail).Asks
      (tells (addNewDomain 0).sentText)) ∧
    (∀ socket ack locals rest code, Traces (recieveUpdate 1178 socket)
        (⟨.act (.versionNum 1178), ack⟩ :: ⟨.send socket [ack], true⟩ :: ⟨.act (.garbage textSize), locals⟩ ::
          ⟨.recv socket textSize, some (addNewDomain 0).sentText⟩ :: rest) code ↔
      Traces (actuallyUpdate 1178 false (addNewDomain 0).domain (addNewDomain 0).ip 0) rest code) ∧
    ∀ m, (∃ m', Delivered 1178 [addNewDomain 0, addNewDomain 32] m m') ∧
      ∀ m', Delivered 1178 [addNewDomain 0, addNewDomain 32] m m' →
        (∀ d, translateIp (m'.coms 1178) d =
          toldAfter [addNewDomain 0, addNewDomain 32] (cString d) (translateIp (m.coms 1178) d)) ∧
        (m'.coms 1178).versionNum = 32 :=
  updates_read_back (addNewDomain 0) [addNewDomain 0, addNewDomain 32] (addNewDomain_clean 0)
    (addNewDomain_fits 0) (by simp [addNewDomain_clean, addNewDomain_fits]) 1178

end DnsServer
