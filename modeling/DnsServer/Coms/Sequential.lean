import DnsServer.Coms.Programs

/-! Communication programs run one at a time over the memory. -/
namespace DnsServer
open Process Program Memory

/-- What the update leaves at its domain. -/
def Update.entry (u : Update) : Option Bytes := if u.remove then none else some u.ip

theorem lookup_apply (u : Update) (t : Table) (d : Bytes) :
    (u.apply t).lookup d = if d = u.domain then u.entry else t.lookup d := by
  unfold Update.apply Update.entry
  by_cases same : d = u.domain
  · subst same
    rw [if_pos rfl]
    split
    · exact Finmap.lookup_erase _ _
    · exact Finmap.lookup_insert _
  · rw [if_neg same]
    split
    · exact Finmap.lookup_erase_ne same
    · exact Finmap.lookup_insert_of_ne _ same

theorem Update.apply_apply (u : Update) (t : Table) : u.apply (u.apply t) = u.apply t := by
  unfold Update.apply
  split
  · apply Finmap.ext_lookup
    intro d
    by_cases same : d = u.domain
    · rw [same, Finmap.lookup_erase, Finmap.lookup_erase]
    · rw [Finmap.lookup_erase_ne same]
  · exact Finmap.insert_insert _

def Coms.actuallyUpdate (c : Coms) (u : Update) : Coms :=
  { c with
    versionNum := u.id
    ipHash := if u.remove then c.ipHash.erase u.domain else c.ipHash.insert u.domain u.ip
    : Coms }.writeHostsFile

@[simp] theorem actuallyUpdate_versionNum (c : Coms) (u : Update) :
    (c.actuallyUpdate u).versionNum = u.id := rfl

@[simp] theorem actuallyUpdate_table (c : Coms) (u : Update) :
    (c.actuallyUpdate u).table = u.apply c.table := by
  change (if u.remove then _ else _ : Hash).toFinmap = _
  unfold Update.apply Coms.table
  split
  · exact (Finmap.erase_toFinmap _ _).symm
  · exact (Finmap.insert_toFinmap _ _ _).symm

@[simp] theorem setComs_same (m : Mem) (p : UInt16) (c : Coms) : (m.setComs p c).coms p = c :=
  Function.update_self ..

theorem setComs_other (m : Mem) (other : q ≠ p) (c : Coms) : (m.setComs p c).coms q = m.coms q :=
  Function.update_of_ne other ..

@[simp] theorem setComs_setComs (m : Mem) (p : UInt16) (c d : Coms) :
    (m.setComs p c).setComs p d = m.setComs p d := by
  simp [Mem.setComs]

@[simp] theorem setComs_self (m : Mem) (p : UInt16) : m.setComs p (m.coms p) = m := by
  simp [Mem.setComs]

/-- What the other ends of a program's sockets do. -/
abbrev Network (N : Type) := Mem × N → (call : platform.Call) → Option (call.Reply × (Mem × N))

/-- One program by itself: locks are free and its sockets are answered by `network`. -/
def system (world : N → World) (network : Network N) : Handler platform.interface (Mem × N)
  | (m, n), .act op => (m.perform (world n) op).map fun (reply, m) => (reply, (m, n))
  | e, .lock _ => some ((), e)
  | e, .unlock _ => some ((), e)
  | e, other => network e other

section
variable {N : Type} {world : N → World} {network : Network N} {m : Mem} {n : N}

/-- A text that arrives in one piece is received as it is. -/
theorem runs_recieveText {h : Handler platform.interface E} (sent buffer : Bytes)
    (arrives : h e (.recv socket textSize) = some (some (sent ++ [0]), e₁)) :
    Runs h (recieveText socket stopOnClose buffer) e
      (some (sent ++ [0] ++ buffer.drop (sent.length + 1))) e₁ := by
  obtain ⟨next, turn, text, _⟩ := recieveText_turn socket stopOnClose buffer .ret
  refine .loop ?_
  rw [turn]
  refine .reply _ e₁ arrives ?_
  rw [text]
  exact .ret

/-- A router that sends one port for each acknowledgement; `e` is the environment by the
ports still to come. -/
theorem runs_recievePorts {h : Handler platform.interface E} {e : List UInt16 → E}
    (answers : ∀ port ports, ∃ e₁, h (e (port :: ports)) (.send socket [1]) = some (true, e₁) ∧
      h e₁ (.recv socket 2) = some (some [loByte port, hiByte port], e ports))
    (ports acc : List UInt16) :
    Runs h (recievePorts socket ports.length acc) (e ports) (some (acc ++ ports)) (e []) := by
  induction ports generalizing acc with
  | nil =>
    rw [List.append_nil]
    exact .ret
  | cons port ports ih =>
    obtain ⟨e₁, sends, arrives⟩ := answers port ports
    have more := ih (acc ++ [port])
    rw [List.append_assoc, List.singleton_append] at more
    simp only [List.length_cons, recievePorts, recievePort, send, recv, request, bind_eq, pure_eq,
      call_bind, ret_bind]
    refine .reply true e₁ sends (.reply _ (e ports) arrives ?_)
    simp only [word_bytes, ret_bind]
    exact more

theorem runs_actuallyUpdate (coms : UInt16) (remove : Bool) (domain ip : Bytes) (id : UInt8) :
    Runs (system world network) (actuallyUpdate coms remove domain ip id) (m, n) 0
      (m.setComs coms ((m.coms coms).actuallyUpdate ⟨remove, domain, ip, id⟩), n) := by
  let m₁ := m.setComs coms { m.coms coms with versionNum := id }
  let m₂ := m.setComs coms { m.coms coms with
    versionNum := id
    ipHash := if remove then (m.coms coms).ipHash.erase domain
      else (m.coms coms).ipHash.insert domain ip }
  let m₃ := m.setComs coms ((m.coms coms).actuallyUpdate ⟨remove, domain, ip, id⟩)
  simp only [actuallyUpdate, act, request, bind_eq, pure_eq, call_bind, ret_bind]
  refine .reply () (m₁, n) rfl ?_
  have written : m₂.setComs coms (m₂.coms coms).writeHostsFile = m₃ := by
    simp [m₂, m₃, Coms.actuallyUpdate]
  cases remove with
  | true =>
    have erased : m₁.setComs coms { m₁.coms coms with
        ipHash := (m₁.coms coms).ipHash.erase domain } = m₂ := by simp [m₁, m₂]
    refine .reply () (m₂, n) ?_ (.reply () (m₃, n) ?_ .ret)
    · exact congrArg (fun m => some ((), (m, n))) erased
    · exact congrArg (fun m => some ((), (m, n))) written
  | false =>
    have inserted : m₁.setComs coms { m₁.coms coms with
        ipHash := (m₁.coms coms).ipHash.insert domain ip } = m₂ := by simp [m₁, m₂]
    refine .reply () (m₂, n) ?_ (.reply () (m₃, n) ?_ .ret)
    · exact congrArg (fun m => some ((), (m, n))) inserted
    · exact congrArg (fun m => some ((), (m, n))) written

end

/-! A peer whose receives end in the given ways, one after the other. -/

/-- `locals` is what uninitialised memory holds. -/
structure Script where
  incoming : List (Option Bytes)
  sent : List Bytes
  locals : (n : Nat) → { bytes : Bytes // bytes.length = n }

def scriptWorld (s : Script) : World
  | .garbage n => some (s.locals n)
  | _ => none

def scriptNetwork : Network Script
  | e, .accept _ => some (⟨0, .server⟩, e)
  | e, .connect _ => some (⟨0, .client⟩, e)
  | (m, s), .send _ bytes => some (true, m, { s with sent := s.sent ++ [bytes] })
  | (m, s), .recv _ len =>
    match s.incoming with
    | [] => none
    | outcome :: incoming =>
      if outcome.all fun bytes => bytes.length ≤ len then some (outcome, m, { s with incoming })
      else none
  | e, .close _ => some ((), e)
  | _, _ => none

abbrev scripted : Handler platform.interface (Mem × Script) := system scriptWorld scriptNetwork

theorem scripted_recv (m : Mem) (s : Script) (socket : Socket)
    (arrives : s.incoming = outcome :: incoming) (fits : ∀ bytes, outcome = some bytes → bytes.length ≤ len) :
    scripted (m, s) (.recv socket len) = some (outcome, m, { s with incoming }) := by
  have allowed : (outcome.all fun bytes => bytes.length ≤ len) = true := by
    cases outcome with
    | none => rfl
    | some bytes => exact decide_eq_true (fits bytes rfl)
  simp only [scripted, system, scriptNetwork, arrives, allowed, if_true]

/-- A peer that gets the whole update applies it, and sends nothing after its version. -/
theorem processNextRequest_updates (p : UInt16) (u : Update) (carried : u.Carried) (m : Mem)
    (s : Script) (arrives : s.incoming = [some [2], some u.text]) :
    Runs scripted (processNextRequest p) (m, s) 0
      (m.setComs p ((m.coms p).actuallyUpdate u),
        { s with incoming := [], sent := s.sent ++ [[(m.coms p).versionNum]] }) := by
  obtain ⟨body, text⟩ := u.text_terminated
  obtain ⟨fits, reads⟩ := carried
  rw [text] at arrives fits reads
  let s₁ : Script := { s with incoming := [some (body ++ [0])] }
  let s₂ : Script := { s₁ with sent := s.sent ++ [[(m.coms p).versionNum]] }
  simp only [processNextRequest, createTcpConnections, recvUnchecked, recv, close, request, bind_eq,
    pure_eq, call_bind, ret_bind]
  refine .reply ⟨0, .server⟩ (m, s) rfl (.reply (some [2]) (m, s₁) ?_ ?_)
  · apply scripted_recv m s _ arrives
    rintro _ ⟨⟩
    simp
  · simp only [ret_bind]
    rw [if_neg (by decide), if_pos trivial]
    simp only [recieveUpdate, act, send, request, bind_eq, pure_eq, call_bind, ret_bind]
    refine .reply (m.coms p).versionNum (m, s₁) rfl (.reply true (m, s₂) rfl ?_)
    simp only [Bool.not_true, Bool.false_eq_true, if_false, call_bind, bind_assoc]
    refine .reply (s.locals textSize) (m, s₂) rfl ?_
    have text := scripted_recv m s₂ ⟨0, .server⟩ rfl (by rintro _ ⟨⟩; exact fits)
    refine .bind (runs_recieveText body _ text) ?_
    simp only [reads]
    exact .bind (runs_actuallyUpdate p u.remove u.domain u.ip u.id) (.reply () _ rfl .ret)

/-- A peer that loses the connection before the text changes nothing. -/
theorem processNextRequest_gone (p : UInt16) (m : Mem) (s : Script)
    (arrives : s.incoming = [some [2], lost]) (gone : lost = none ∨ lost = some []) :
    Runs scripted (processNextRequest p) (m, s) 0
      (m, { s with incoming := [], sent := s.sent ++ [[(m.coms p).versionNum]] }) := by
  let s₁ : Script := { s with incoming := [lost] }
  let s₂ : Script := { s₁ with sent := s.sent ++ [[(m.coms p).versionNum]] }
  let s₃ : Script := { s₂ with incoming := [] }
  simp only [processNextRequest, createTcpConnections, recvUnchecked, recv, close, request, bind_eq,
    pure_eq, call_bind, ret_bind]
  refine .reply ⟨0, .server⟩ (m, s) rfl (.reply (some [2]) (m, s₁) ?_ ?_)
  · apply scripted_recv m s _ arrives
    rintro _ ⟨⟩
    simp
  · simp only [ret_bind]
    rw [if_neg (by decide), if_pos trivial]
    simp only [recieveUpdate, act, send, close, request, bind_eq, pure_eq, call_bind, ret_bind]
    refine .reply (m.coms p).versionNum (m, s₁) rfl (.reply true (m, s₂) rfl ?_)
    simp only [Bool.not_true, Bool.false_eq_true, if_false, call_bind, bind_assoc]
    refine .reply (s.locals textSize) (m, s₂) rfl ?_
    have nothing : Runs scripted (recieveText ⟨0, .server⟩ true (s.locals textSize).val) (m, s₂) none
        (m, s₃) := by
      refine .loop ?_
      simp only [unroll, recieveChunk, recv, request, bind_eq, pure_eq, call_bind, ret_bind]
      refine .reply lost (m, s₃) (scripted_recv m s₂ _ rfl ?_) ?_
      · rcases gone with rfl | rfl
        · rintro _ ⟨⟩
        · rintro _ ⟨⟩
          exact Nat.zero_le _
      · rcases gone with rfl | rfl
        · exact .ret
        · exact .ret
    exact .bind nothing (.reply () _ rfl (.reply () _ rfl .ret))

end DnsServer
