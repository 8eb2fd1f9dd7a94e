import DnsServer.Router.Locking

/-! The rotation against a list: what a sequence of additions and removals leaves, and which sequences
come to their end. -/
namespace DnsServer
open Process Program

inductive RotationCall where
  | add (dns : Server)
  | remove (dnsId : UInt8)
  deriving DecidableEq

namespace RotationCall

def program : RotationCall → Proc UInt8
  | .add dns => addDnsServer dns
  | .remove dnsId => removeServer dnsId

/-- The server to remove is there. -/
def Found (servers : List Server) : RotationCall → Prop
  | .add _ => True
  | .remove dnsId => ∃ server ∈ servers, server.id = dnsId.toUInt16

instance (servers : List Server) : DecidablePred (Found servers)
  | .add _ => isTrue trivial
  | .remove dnsId => inferInstanceAs (Decidable (∃ server ∈ servers, server.id = dnsId.toUInt16))

/-- The call on a list: an addition appends, a removal takes the first server with the id. -/
def onList (servers : List Server) : RotationCall → List Server
  | .add dns => servers ++ [dns]
  | .remove dnsId => servers.eraseP (·.id = dnsId.toUInt16)

/-- The code that the call returns: 1 where there is no such server. -/
def code (servers : List Server) (c : RotationCall) : UInt8 := if c.Found servers then 0 else 1

end RotationCall

def callsOnList (servers : List Server) (calls : List RotationCall) : List Server :=
  calls.foldl RotationCall.onList servers

def codesOnList (servers : List Server) : List RotationCall → List UInt8
  | [] => []
  | c :: calls => c.code servers :: codesOnList (c.onList servers) calls

theorem length_callsOnList (servers : List Server) (calls : List RotationCall) :
    (callsOnList servers calls).length ≤ servers.length + calls.length := by
  induction calls generalizing servers with
  | nil => exact le_rfl
  | cons c calls ih =>
    have rest := ih (c.onList servers)
    have one : (c.onList servers).length ≤ servers.length + 1 := by
      cases c with
      | add dns => exact Nat.le_of_eq List.length_append
      | remove dnsId => exact (List.length_eraseP_le).trans (Nat.le_succ _)
    change (callsOnList (c.onList servers) calls).length ≤ _
    rw [List.length_cons]
    omega

/-- The calls, one after the other, and their codes. -/
def rotationCalls : List RotationCall → Proc (List UInt8)
  | [] => return []
  | c :: calls => do
    let code ← c.program
    let codes ← rotationCalls calls
    return code :: codes

/-- The calls come to their end, return what they return on a list, and leave that list in an array that
has an element for each server. -/
def RefinesList (e : Attempt) (calls : List RotationCall) : Prop :=
  ∃ e₁, Runs attempt (rotationCalls calls) e (codesOnList e.mem.router.rotation calls) e₁ ∧
    e₁.mem.router.Sized ∧ e₁.mem.router.rotation = callsOnList e.mem.router.rotation calls

/-- Nothing comes after the removal of a server that is not there. -/
def EndsUnfound (servers : List Server) (calls : List RotationCall) : Prop :=
  ∀ before c after, calls = before ++ c :: after → after ≠ [] → c.Found (callsOnList servers before)

section
variable {e e₁ : Attempt}

theorem attempt_add (free : ∀ l, e.held l = false) (sized : e.mem.router.Sized)
    (room : e.mem.router.rotation.length + 1 ≤ 255) (dns : Server) :
    ∃ e₁, Runs attempt (addDnsServer dns) e 0 e₁ ∧ e₁.held = e.held ∧ e₁.mem.router.Sized ∧
      e₁.mem.router.rotation = e.mem.router.rotation ++ [dns] := by
  have notFull : e.mem.router.serverCnt ≠ 255 := by
    intro full
    have value : (255 : UInt8).toNat = 255 := rfl
    rw [sized.covered.length_rotation, full] at room
    omega
  obtain ⟨router, added⟩ := Option.isSome_iff_exists.mp (addServer_isSome notFull dns)
  obtain ⟨sized₁, rotation, _⟩ := addServer_spec sized.covered dns added
  let e₁ : Attempt := { e.setLock .mutex true with mem := { e.mem with router } }
  have ran : Runs attempt (addDnsServer dns) e 0 (e₁.setLock .mutex false) := by
    simp only [addDnsServer, lock, unlock, act, request, bind_eq, pure_eq, call_bind, ret_bind]
    refine .reply () (e.setLock .mutex true) (by simp [attempt, free]) (.reply () e₁ ?_ (.reply () _ rfl .ret))
    simp only [attempt, system, Mem.perform, Attempt.setLock, added, Option.map_some]
    rfl
  exact ⟨_, ran, addDnsServer_locks ran, sized₁, rotation⟩

theorem attempt_remove (free : ∀ l, e.held l = false) (sized : e.mem.router.Sized) (dnsId : UInt8) :
    ∃ e₁, Runs attempt (removeServer dnsId) e ((RotationCall.remove dnsId).code e.mem.router.rotation) e₁ ∧
      e₁.mem.router.Sized ∧
      e₁.mem.router.rotation = e.mem.router.rotation.eraseP (·.id = dnsId.toUInt16) ∧
      (e₁.held = e.held ∧ (RotationCall.remove dnsId).Found e.mem.router.rotation ∨
        e₁.held .mutex = true ∧ ¬ (RotationCall.remove dnsId).Found e.mem.router.rotation) := by
  obtain ⟨deleted, router, shifted, _, _, rotation, covered, kept⟩ := shiftOut_spec sized.covered dnsId
  have found := shiftOut_deleted sized.covered shifted
  have taken : (e.setLock .mutex true).held .tcpMutex = false := free .tcpMutex
  let e₂ : Attempt := (e.setLock .mutex true).setLock .tcpMutex true
  have start : ∀ {code e₁}, Runs attempt (if !deleted then .ret 1 else do
      act .shrinkServers
      unlock .mutex
      unlock .tcpMutex
      return 0) { e₂ with mem := { e.mem with router } } code e₁ → Runs attempt (removeServer dnsId) e code e₁ := by
    intro code e₁ rest
    simp only [removeServer, lock, unlock, act, request, bind_eq, pure_eq, call_bind, ret_bind] at rest ⊢
    refine .reply () (e.setLock .mutex true) (by simp [attempt, free]) ?_
    refine .reply () e₂ (by simp [attempt, taken, e₂]) ?_
    refine .reply deleted { e₂ with mem := { e.mem with router } } ?_ rest
    simp only [attempt, system, Mem.perform, Attempt.setLock, e₂, shifted, Option.map_some]
  cases deleted with
  | false =>
    obtain rfl := kept rfl
    have missing : ¬ (RotationCall.remove dnsId).Found e.mem.router.rotation := fun there => by
      cases found.mpr there
    refine ⟨e₂, start ?_, sized, rotation, .inr ⟨rfl, missing⟩⟩
    rw [RotationCall.code, if_neg missing]
    exact .ret
  | true =>
    have there : (RotationCall.remove dnsId).Found e.mem.router.rotation := found.mp rfl
    obtain ⟨sized₁, same⟩ := shrinkServers_spec covered
    let e₃ : Attempt := { e₂ with mem := { e.mem with router := router.shrinkServers } }
    have ran : Runs attempt (removeServer dnsId) e ((RotationCall.remove dnsId).code e.mem.router.rotation)
        ((e₃.setLock .mutex false).setLock .tcpMutex false) := by
      rw [RotationCall.code, if_pos there]
      apply start
      simp only [unlock, act, request, bind_eq, pure_eq, call_bind, ret_bind]
      exact .reply () e₃ rfl (.reply () _ rfl (.reply () _ rfl .ret))
    exact ⟨_, ran, sized₁, same.trans rotation, .inl ⟨(removeServer_locks sized ran).mpr there, there⟩⟩

/-- Every call waits for the mutex first. -/
theorem RotationCall.stuck (c : RotationCall) (held : e.held .mutex = true) : ¬ Runs attempt c.program e result e₁ := by
  intro ran
  cases c with
  | add dns =>
    simp only [program, addDnsServer, lock, request, bind_eq, call_bind, runs_call_iff] at ran
    obtain ⟨_, _, locked, _⟩ := ran
    rw [(attempt_lock locked).1] at held
    cases held
  | remove dnsId =>
    simp only [program, removeServer, lock, request, bind_eq, call_bind, runs_call_iff] at ran
    obtain ⟨_, _, locked, _⟩ := ran
    rw [(attempt_lock locked).1] at held
    cases held

theorem RotationCall.runs (c : RotationCall) (free : ∀ l, e.held l = false) (sized : e.mem.router.Sized)
    (room : (c.onList e.mem.router.rotation).length ≤ 255) :
    ∃ e₁, Runs attempt c.program e (c.code e.mem.router.rotation) e₁ ∧ e₁.mem.router.Sized ∧
      e₁.mem.router.rotation = c.onList e.mem.router.rotation ∧
      (e₁.held = e.held ∧ c.Found e.mem.router.rotation ∨
        e₁.held .mutex = true ∧ ¬ c.Found e.mem.router.rotation) := by
  cases c with
  | add dns =>
    rw [onList, List.length_append, List.length_singleton] at room
    obtain ⟨e₁, ran, held, sized₁, rotation⟩ := attempt_add free sized room dns
    exact ⟨e₁, ran, sized₁, rotation, .inl ⟨held, trivial⟩⟩
  | remove dnsId => exact attempt_remove free sized dnsId

theorem endsUnfound_cons : EndsUnfound servers (c :: calls) ↔
    (calls ≠ [] → c.Found servers) ∧ EndsUnfound (c.onList servers) calls := by
  constructor
  · intro ends
    refine ⟨fun more => ends [] c calls rfl more, fun before other after same more => ?_⟩
    exact ends (c :: before) other after (congrArg (c :: ·) same) more
  · rintro ⟨first, rest⟩ before other after same more
    cases before with
    | nil =>
      obtain ⟨rfl, rfl⟩ := List.cons.inj same
      exact first more
    | cons head before =>
      obtain ⟨rfl, tail⟩ := List.cons.inj same
      exact rest before other after tail more

theorem calls_refine_iff (free : ∀ l, e.held l = false) (sized : e.mem.router.Sized)
    (few : ∀ before, before <+: calls → (callsOnList e.mem.router.rotation before).length ≤ 255) :
    RefinesList e calls ↔ EndsUnfound e.mem.router.rotation calls := by
  induction calls generalizing e with
  | nil =>
    refine iff_of_true ⟨e, .ret, sized, rfl⟩ ?_
    intro before c after same
    simp at same
  | cons c calls ih =>
    have room := few [c] (List.prefix_append [c] calls)
    obtain ⟨e₁, ran, sized₁, rotation, locks⟩ := c.runs free sized room
    have split : RefinesList e (c :: calls) ↔ RefinesList e₁ calls := by
      unfold RefinesList
      rw [rotation]
      constructor
      · rintro ⟨e₂, whole, sized₂, same⟩
        obtain ⟨code, e₃, first, whole⟩ := Runs.split whole
        obtain ⟨rfl, rfl⟩ := ran.unique first
        obtain ⟨codes, e₄, rest, done⟩ := Runs.split whole
        obtain ⟨listed, rfl⟩ := runs_ret_iff.mp done
        obtain ⟨_, rfl⟩ := List.cons.inj listed
        exact ⟨e₂, rest, sized₂, same⟩
      · rintro ⟨e₂, rest, sized₂, same⟩
        exact ⟨e₂, ran.bind (rest.bind .ret), sized₂, same⟩
    rw [split, endsUnfound_cons, ← rotation]
    rcases locks with ⟨freed, found⟩ | ⟨held, missing⟩
    · have few₁ : ∀ before, before <+: calls → (callsOnList e₁.mem.router.rotation before).length ≤ 255 := by
        intro before start
        rw [rotation]
        exact few (c :: before) (List.cons_prefix_cons.mpr ⟨rfl, start⟩)
      rw [ih (fun l => freed ▸ free l) sized₁ few₁]
      exact ⟨fun ends => ⟨fun _ => found, ends⟩, And.right⟩
    · cases calls with
      | nil =>
        refine iff_of_true ⟨e₁, .ret, sized₁, rfl⟩ ⟨fun more => absurd rfl more, ?_⟩
        intro before c after same
        simp at same
      | cons next calls =>
        refine iff_of_false ?_ fun ends => missing (ends.1 (List.cons_ne_nil _ _))
        rintro ⟨e₂, whole, _⟩
        obtain ⟨_, _, first, _⟩ := Runs.split whole
        exact next.stuck held first

end

/-- The router before any server is added. -/
def emptyAttempt (mode : RouterMode) (outcomes : Outcomes) : Attempt := ⟨startMem mode, outcomes, fun _ => false⟩

/-- From the empty router, as long as no more than 255 servers are present at once, the calls do what they do
on a list exactly when none comes after the removal of a server that is not there. -/
theorem rotation_refines_list_iff (mode : RouterMode) (outcomes : Outcomes)
    (few : ∀ before, before <+: calls → (callsOnList [] before).length ≤ 255) :
    RefinesList (emptyAttempt mode outcomes) calls ↔ EndsUnfound [] calls :=
  calls_refine_iff (e := emptyAttempt mode outcomes) (fun _ => rfl) (createRouter_sized mode) few

def someServer (id : UInt16) : Server := createDnsServer [] id 0 0

theorem rotation_refines_list_three :
    RefinesList (emptyAttempt .roundRobin ⟨[], [], 0⟩)
        [.add (someServer 1), .add (someServer 2), .add (someServer 1), .remove 1] ↔
      EndsUnfound [] [.add (someServer 1), .add (someServer 2), .add (someServer 1), .remove 1] :=
  rotation_refines_list_iff .roundRobin ⟨[], [], 0⟩ fun before start => by
    have few := length_callsOnList [] before
    have short := start.length_le
    simp only [List.length_nil, List.length_cons] at few short
    omega

/-- After the removal of a server that is not there an addition waits for good. -/
theorem rotation_stuck :
    ¬ RefinesList (emptyAttempt .roundRobin ⟨[], [], 0⟩) [.remove 9, .add (someServer 1)] := by
  have few : ∀ before, before <+: [RotationCall.remove 9, .add (someServer 1)] →
      (callsOnList [] before).length ≤ 255 := by
    intro before start
    have few := length_callsOnList [] before
    have short := start.length_le
    simp only [List.length_nil, List.length_cons] at few short
    omega
  intro refines
  have ends := (calls_refine_iff (e := emptyAttempt .roundRobin ⟨[], [], 0⟩) (fun _ => rfl)
    (createRouter_sized _) few).mp refines
  obtain ⟨_, there, _⟩ := ends [] (.remove 9) [.add (someServer 1)] rfl (List.cons_ne_nil _ _)
  exact absurd there List.not_mem_nil

end DnsServer
