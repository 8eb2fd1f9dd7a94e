import DnsServer.Cluster.Brought

/-! The updates one server receives over a run, old messages among them. -/
namespace DnsServer
open Process Program

/-- What can change the server's table, the updates being named by the order of their issue. -/
inductive TableEvent where
  /-- The message of the `k`th update arrives under request code 2. -/
  | deliver (k : Nat)
  /-- The server issues the `k`th update itself. -/
  | initiate (k : Nat)
  /-- A full transfer from a server at the `k`th update. -/
  | transfer (table : Hash) (k : Nat)

/-- `current` is the update whose id the server carries as its version. -/
structure History where
  mem : Mem
  delivered : List Nat
  current : Option Nat

/-- The message has been delivered to the server already, or its update was issued before
the one that the server is at. -/
def History.Old (h : History) (k : Nat) : Prop :=
  k ∈ h.delivered ∨ ∃ j, h.current = some j ∧ k < j

def History.SameTable (p : UInt16) (h h₁ : History) : Prop :=
  (h₁.mem.coms p).table = (h.mem.coms p).table ∧
    (h₁.mem.coms p).versionNum = (h.mem.coms p).versionNum

/-- The same addition issued over and over, with the ids in turn. -/
def addNewDomains (k : Nat) : Update := addNewDomain (UInt8.ofNat k)

variable (p : UInt16) (issued : Nat → Update)

inductive Received : History → TableEvent → History → Prop where
  | deliver : s.incoming = [some [2], some (issued k).text] →
      Runs scripted (processNextRequest p) (h.mem, s) code (m, s₁) →
      Received h (.deliver k) ⟨m, k :: h.delivered, some k⟩
  | initiate : Received h (.initiate k)
      ⟨h.mem.setComs p ((h.mem.coms p).actuallyUpdate (issued k)), h.delivered, some k⟩
  | transfer : Received h (.transfer table k)
      ⟨h.mem.setComs p { h.mem.coms p with ipHash := table, versionNum := (issued k).id },
        h.delivered, some k⟩

inductive ReceivedAll (start : Mem) : List TableEvent → History → Prop where
  | start : ReceivedAll start [] ⟨start, [], none⟩
  | event : ReceivedAll start events h → Received p issued h e h₁ →
      ReceivedAll start (events ++ [e]) h₁

variable {p issued}

/-- The receiver makes no check: whatever arrives is applied. -/
theorem deliver_applies (carried : (issued k).Carried) (received : Received p issued h (.deliver k) h₁) :
    h₁.mem = h.mem.setComs p ((h.mem.coms p).actuallyUpdate (issued k)) := by
  cases received with
  | deliver arrives ran =>
    obtain ⟨_, same⟩ := ran.unique (processNextRequest_updates p (issued k) carried h.mem _ arrives)
    exact (Prod.mk.inj same).1

/-- The update that the event brings the server to. -/
def TableEvent.update : TableEvent → Nat
  | .deliver k => k
  | .initiate k => k
  | .transfer _ k => k

/-- What the event leaves at a domain, when it says anything of it. -/
def TableEvent.entry? (issued : Nat → Update) (d : Bytes) : TableEvent → Option (Option Bytes)
  | .transfer table _ => some (table.lookup d)
  | event => if (issued event.update).domain = d then some (issued event.update).entry else none

/-- The id that the server is at after these events: that of the last one. -/
def versionAfter (issued : Nat → Update) (start : Coms) (events : List TableEvent) : UInt8 :=
  (events.getLast?.map fun event => (issued event.update).id).getD start.versionNum

/-- What a domain is translated to after these events: what the last one leaves that says anything of it. -/
def entryAfter (issued : Nat → Update) (start : Coms) (events : List TableEvent) (d : Bytes) : Option Bytes :=
  (events.reverse.findSome? (TableEvent.entry? issued d)).getD (start.table.lookup d)

/-- The `k`th update is old after these events. -/
def OldAfter (events : List TableEvent) (k : Nat) : Prop :=
  .deliver k ∈ events ∨ ∃ j, events.getLast?.map TableEvent.update = some j ∧ k < j

/-- The last event has brought the server to the id of the `k`th update, and the last one that says anything of
its domain has left there what the update sets. -/
structure Stands (issued : Nat → Update) (start : Coms) (events : List TableEvent) (k : Nat) : Prop where
  id : versionAfter issued start events = (issued k).id
  entry : entryAfter issued start events (issued k).domain = (issued k).entry

theorem apply_self_iff (u : Update) (t : Table) : u.apply t = t ↔ t.lookup u.domain = u.entry :=
  (apply_eq_iff u t t).trans (and_iff_right fun _ _ => rfl)

theorem deliver_ignored_iff (carried : (issued k).Carried) (received : Received p issued h (.deliver k) h₁) :
    h.SameTable p h₁ ↔ (h.mem.coms p).versionNum = (issued k).id ∧
      (h.mem.coms p).table.lookup (issued k).domain = (issued k).entry := by
  unfold History.SameTable
  rw [deliver_applies carried received, setComs_same, actuallyUpdate_table, apply_self_iff, and_comm]
  exact and_congr_left fun _ => eq_comm

/-- One event: the server is at its id, and has the entries that it leaves beside those from before. -/
theorem received_stands (carried : ∀ k, (issued k).Carried) (received : Received p issued h e h₁) :
    (h₁.mem.coms p).versionNum = (issued e.update).id ∧
      ∀ d, (h₁.mem.coms p).table.lookup d = (e.entry? issued d).getD ((h.mem.coms p).table.lookup d) := by
  have made : ∀ (u : Update) d, ((h.mem.coms p).actuallyUpdate u).table.lookup d =
      (if u.domain = d then some u.entry else none).getD ((h.mem.coms p).table.lookup d) := by
    intro u d
    rw [actuallyUpdate_table, lookup_apply]
    by_cases same : u.domain = d
    · rw [if_pos same, if_pos same.symm, Option.getD_some]
    · rw [if_neg same, if_neg (Ne.symm same), Option.getD_none]
  cases e with
  | deliver k =>
    rw [deliver_applies (carried k) received, setComs_same]
    exact ⟨rfl, made (issued k)⟩
  | initiate k =>
    cases received
    rw [setComs_same]
    exact ⟨rfl, made (issued k)⟩
  | transfer table k =>
    cases received
    rw [setComs_same]
    exact ⟨rfl, fun d => rfl⟩

/-- A whole run, by its events. -/
theorem receivedAll_stands (carried : ∀ k, (issued k).Carried) (reached : ReceivedAll p issued start events h) :
    (h.mem.coms p).versionNum = versionAfter issued (start.coms p) events ∧
      ∀ d, (h.mem.coms p).table.lookup d = entryAfter issued (start.coms p) events d := by
  induction reached with
  | start => exact ⟨rfl, fun _ => rfl⟩
  | @event events h e h₁ _ received ih =>
    obtain ⟨version, entries⟩ := received_stands carried received
    constructor
    · rw [version, versionAfter, List.getLast?_concat]
      rfl
    · intro d
      rw [entries, ih.2, entryAfter, entryAfter, List.reverse_concat, List.findSome?_cons]
      cases e.entry? issued d <;> rfl

/-- What is old can be told from the events too. -/
theorem old_iff (reached : ReceivedAll p issued start events h) (k : Nat) : h.Old k ↔ OldAfter events k := by
  have told : (∀ k, k ∈ h.delivered ↔ .deliver k ∈ events) ∧
      h.current = events.getLast?.map TableEvent.update := by
    induction reached with
    | start => exact ⟨fun k => by simp, rfl⟩
    | event _ received ih =>
      rw [List.getLast?_concat]
      cases received with
      | deliver =>
        refine ⟨fun k => ?_, rfl⟩
        rw [List.mem_append, List.mem_singleton, List.mem_cons, ih.1, TableEvent.deliver.injEq, or_comm]
      | initiate => exact ⟨fun k => by simp [ih.1], rfl⟩
      | transfer => exact ⟨fun k => by simp [ih.1], rfl⟩
  rw [History.Old, OldAfter, told.1, told.2]

theorem exists_deliver (carried : (issued k).Carried) (h : History) :
    ∃ h₁, Received p issued h (.deliver k) h₁ := by
  let s : Script := ⟨[some [2], some (issued k).text], [], fun n => ⟨_, List.length_replicate (a := 0) (n := n)⟩⟩
  exact ⟨_, .deliver (s := s) rfl (processNextRequest_updates p (issued k) carried h.mem s rfl)⟩

theorem exists_receivedAll (carried : ∀ k, (issued k).Carried) (start : Mem) (events : List TableEvent) :
    ∃ h, ReceivedAll p issued start events h := by
  induction events using List.reverseRecOn with
  | nil => exact ⟨_, .start⟩
  | append_singleton events e ih =>
    obtain ⟨h, reached⟩ := ih
    cases e with
    | deliver k =>
      obtain ⟨h₁, received⟩ := exists_deliver (carried k) h
      exact ⟨h₁, .event reached received⟩
    | initiate k => exact ⟨_, .event reached .initiate⟩
    | transfer table k => exact ⟨_, .event reached .transfer⟩

/-- In every run, every old message is ignored exactly when before each the last event has brought the server to
its id, and the last one that says anything of its domain has left what it sets. -/
theorem replays_ignored_iff (carried : ∀ k, (issued k).Carried) (start : Mem)
    (events : List TableEvent) :
    (∀ before k after h h₁, events = before ++ .deliver k :: after →
        ReceivedAll p issued start before h → Received p issued h (.deliver k) h₁ → h.Old k →
        h.SameTable p h₁) ↔
      ∀ before k after, events = before ++ .deliver k :: after → OldAfter before k →
        Stands issued (start.coms p) before k := by
  constructor
  · intro ignored before k after split old
    obtain ⟨h, reached⟩ := exists_receivedAll carried start before
    obtain ⟨h₁, received⟩ := exists_deliver (carried k) h
    have same := ignored before k after h h₁ split reached received ((old_iff reached k).mpr old)
    obtain ⟨version, entry⟩ := (deliver_ignored_iff (carried k) received).mp same
    obtain ⟨versions, entries⟩ := receivedAll_stands carried reached
    exact ⟨versions.symm.trans version, (entries _).symm.trans entry⟩
  · intro stands before k after h h₁ split reached received old
    obtain ⟨version, entry⟩ := stands before k after split ((old_iff reached k).mp old)
    obtain ⟨versions, entries⟩ := receivedAll_stands carried reached
    exact (deliver_ignored_iff (carried k) received).mpr ⟨versions.trans version, (entries _).trans entry⟩

theorem replays_ignored_new_domain :
    (∀ before k after h h₁, [TableEvent.deliver 0, .deliver 0] = before ++ .deliver k :: after →
        ReceivedAll 1 addNewDomains (startMem .roundRobin) before h →
        Received 1 addNewDomains h (.deliver k) h₁ → h.Old k → h.SameTable 1 h₁) ↔
      ∀ before k after, [TableEvent.deliver 0, .deliver 0] = before ++ .deliver k :: after → OldAfter before k →
        Stands addNewDomains ((startMem .roundRobin).coms 1) before k :=
  replays_ignored_iff (fun k => addNewDomain_carried (UInt8.ofNat k)) (startMem .roundRobin)
    [.deliver 0, .deliver 0]

/-- An addition and then the removal of the same domain. -/
def addThenRemove (k : Nat) : Update :=
  if k = 0 then addNewDomain 1 else { addNewDomain 2 with remove := true }

theorem addThenRemove_carried (k : Nat) : (addThenRemove k).Carried := by
  unfold addThenRemove
  split
  · exact addNewDomain_carried 1
  · refine Update.carried_of_clean _ ⟨⟨?_, ?_, ?_⟩, ?_, ?_, ?_⟩ ?_
    all_goals simp [addNewDomain, Update.Fits, Update.text, space, textSize]

/-- The addition, delivered again after the removal, is applied again. -/
theorem replay_undoes_removal :
    ∃ h h₁, ReceivedAll 1 addThenRemove (startMem .roundRobin) [.deliver 0, .deliver 1] h ∧
      h.Old 0 ∧ Received 1 addThenRemove h (.deliver 0) h₁ ∧ ¬ h.SameTable 1 h₁ := by
  obtain ⟨first, received⟩ := exists_deliver (p := 1) (addThenRemove_carried 0)
    ⟨startMem .roundRobin, [], none⟩
  obtain ⟨second, received'⟩ := exists_deliver (p := 1) (addThenRemove_carried 1) first
  obtain ⟨third, received''⟩ := exists_deliver (p := 1) (addThenRemove_carried 0) second
  have old : second.Old 0 := by
    cases received' with
    | deliver _ _ => exact .inr ⟨1, rfl, Nat.zero_lt_one⟩
  refine ⟨second, third, .event (.event .start received) received', old, received'', ?_⟩
  intro same
  have settled := (deliver_ignored_iff (addThenRemove_carried 0) received'').mp same
  have version : (second.mem.coms 1).versionNum = 2 := by
    rw [deliver_applies (addThenRemove_carried 1) received', setComs_same]
    rfl
  exact absurd (version.symm.trans settled.1) (by decide)

end DnsServer
