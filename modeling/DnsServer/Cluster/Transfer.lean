import DnsServer.Coms.Sequential
import DnsServer.Process.Exchange

/-! The full transfer of a hosts table: `request_hosts` at one end of a connection and
`send_entire_file` at the other. -/
namespace DnsServer
open Process Program Relation

/-- The memory of one server; `locals` is what uninitialised memory holds. -/
structure Local where
  mem : Mem
  locals : (n : Nat) → { bytes : Bytes // bytes.length = n }

def localWorld (e : Local) : World
  | .garbage n => some (e.locals n)
  | _ => none

def localAnswer (e : Local) (op : Op) : Option (op.Reply × Local) :=
  (e.mem.perform (localWorld e) op).map fun (reply, mem) => (reply, { e with mem })

def talk (requester sender : End platform Local) (linked : Bool) : Exchange platform Local where
  ends
    | .client => requester
    | .server => sender
  linked := linked

/-- The requester `x` is about to ask the server `p`. -/
def transferStart (x p : UInt16) (requester sender : Local) : Exchange platform Local :=
  talk ⟨requestHosts x p, requester, [], false⟩ ⟨processNextRequest p, sender, [], false⟩ false

/-- The requester has returned 0 with the sender's table and version. -/
def Copied (x : UInt16) (c : Coms) (X : Exchange platform Local) : Prop :=
  (X.ends .client).program = .ret 0 ∧ ((X.ends .client).env.mem.coms x).table = c.table ∧
    ((X.ends .client).env.mem.coms x).versionNum = c.versionNum

/-- Some run goes on to an end with the property. -/
def Arrives (post : Exchange platform Local → Prop) (X : Exchange platform Local) : Prop :=
  ∃ Y, ReflTransGen (Exchange.Moves localAnswer) X Y ∧ (∀ Z, ¬ Exchange.Moves localAnswer Y Z) ∧ post Y

section
variable {post : Exchange platform Local → Prop} {a b a₁ b₁ : End platform Local} {linked l : Bool}

theorem arrives_move (moved : Exchange.Moves localAnswer X Y) (rest : Arrives post Y) : Arrives post X := by
  obtain ⟨Z, run, stuck, last⟩ := rest
  exact ⟨Z, .head moved run, stuck, last⟩

theorem requester_moves (step : a.step localAnswer .client linked b.closed = some (a₁, said, l))
    (rest : Arrives post (talk a₁ (b.hear said) (linked || l))) : Arrives post (talk a b linked) := by
  refine arrives_move ⟨.client, a₁, said, l, step, ?_⟩ rest
  simp only [Exchange.after, talk, Exchange.mk.injEq, and_true]
  funext side
  cases side with
  | client => rfl
  | server => rfl

theorem sender_moves (step : b.step localAnswer .server linked a.closed = some (b₁, said, l))
    (rest : Arrives post (talk (a.hear said) b₁ (linked || l))) : Arrives post (talk a b linked) := by
  refine arrives_move ⟨.server, b₁, said, l, step, ?_⟩ rest
  simp only [Exchange.after, talk, Exchange.mk.injEq, and_true]
  funext side
  cases side with
  | client => rfl
  | server => rfl

end

section
variable {post : Exchange platform Local → Prop} {k k₁ : UInt8 → Proc UInt8}

/-- The sender's turn for one entry, on the requester's acknowledgement. -/
theorem sender_sends (p : UInt16) (i : Nat) (a : End platform Local) (s : Local)
    (entry : Sigma fun _ : Bytes => Bytes) (at_ : (s.mem.coms p).ipHash.entries[i]? = some entry)
    (rest : Arrives post (talk (a.hear [entryText entry.1 entry.2])
      ⟨.loop (i + 1) (sendEntry ⟨0, .server⟩ p) k₁, s, [], false⟩ true)) :
    Arrives post (talk a ⟨.loop i (sendEntry ⟨0, .server⟩ p) k₁, s, [[1]], false⟩ true) := by
  refine sender_moves rfl ?_
  simp only [unroll, sendEntry, act, recv, send, request, bind_eq, pure_eq, call_bind, ret_bind,
    End.hear_nil, Bool.or_false]
  refine sender_moves rfl ?_
  simp only [at_, call_bind, End.hear_nil, Bool.or_false]
  refine sender_moves rfl ?_
  simp only [List.take, Option.isNone_some, Bool.false_eq_true, if_false, call_bind, End.hear_nil,
    Bool.or_false]
  exact sender_moves rfl rest

/-- A text that has arrived in one piece is taken as it is. -/
theorem requester_takes (r : Local) (b : End platform Local) (buffer text : Bytes)
    {next : Option Bytes → Proc UInt8} (fits : (text ++ [0]).length ≤ textSize)
    (rest : Arrives post
      (talk ⟨next (some (text ++ [0] ++ buffer.drop (text.length + 1))), r, [], false⟩ b true)) :
    Arrives post (talk ⟨unroll (buffer, 0) (recieveChunk ⟨0, .client⟩ false) next, r, [text ++ [0]], false⟩
      b true) := by
  obtain ⟨answered, turn, taken, _⟩ := recieveText_turn ⟨0, .client⟩ false buffer next
  rw [turn]
  have step : End.step localAnswer .client true b.closed
      ⟨@Program.call platform.interface _ (.recv ⟨0, .client⟩ textSize) answered, r, [text ++ [0]], false⟩ =
        some (⟨answered (some (text ++ [0])), r, [], false⟩, [], false) := by
    simp only [End.step, if_true, List.take_of_length_le fits, leftover, if_pos fits]
  refine requester_moves step ?_
  rw [taken, End.hear_nil]
  exact rest

/-- One entry passes: acknowledgement, text and insertion. -/
theorem entry_passes (x p : UInt16) (n i : Nat) (r s : Local) (buffer : Bytes)
    (neat : Neat (s.mem.coms p).ipHash.entries) (entry : Sigma fun _ : Bytes => Bytes)
    (at_ : (s.mem.coms p).ipHash.entries[i]? = some entry)
    (rest : ∀ buffer, Arrives post (talk ⟨(recieveEntries ⟨0, .client⟩ x n buffer).bind k, { r with
          mem := r.mem.setComs x { r.mem.coms x with
            ipHash := (r.mem.coms x).ipHash.insert entry.1 entry.2 } }, [], false⟩
        ⟨.loop (i + 1) (sendEntry ⟨0, .server⟩ p) k₁, s, [], false⟩ true)) :
    Arrives post (talk ⟨(recieveEntries ⟨0, .client⟩ x (n + 1) buffer).bind k, r, [], false⟩
      ⟨.loop i (sendEntry ⟨0, .server⟩ p) k₁, s, [], false⟩ true) := by
  obtain ⟨d, ip⟩ := entry
  have member := List.mem_of_getElem? at_
  have text := entryText_terminated d ip
  have small := neat.fits _ member
  have reads := decodeEntry_text (neat.domain _ member) (neat.ip _ member)
    (buffer.drop ((d ++ space :: ip).length + 1))
  simp only [recieveEntries, recieveText, send, request, bind_eq, pure_eq, call_bind, ret_bind]
  refine requester_moves rfl ?_
  simp only [Bool.not_true, Bool.false_eq_true, if_false, loop_bind, Bool.or_false]
  refine requester_moves rfl (sender_sends p i _ s ⟨d, ip⟩ at_ ?_)
  simp only [End.hear, List.nil_append]
  rw [text] at small reads ⊢
  refine requester_takes r _ buffer (d ++ space :: ip) small ?_
  simp only [ret_bind, reads, act, request, call_bind]
  exact requester_moves rfl (rest _)

/-- Entry after entry passes. -/
theorem entries_pass (x p : UInt16) (n i : Nat) (r s : Local) (buffer : Bytes)
    (neat : Neat (s.mem.coms p).ipHash.entries) (inside : i + n ≤ (s.mem.coms p).ipHash.entries.length)
    (rest : ∀ hash : Hash, hash.toFinmap = copyEntries (r.mem.coms x).table
        (((s.mem.coms p).ipHash.entries.drop i).take n) →
      Arrives post (talk
        ⟨k 0, { r with mem := r.mem.setComs x { r.mem.coms x with ipHash := hash } }, [], false⟩
        ⟨.loop (i + n) (sendEntry ⟨0, .server⟩ p) k₁, s, [], false⟩ true)) :
    Arrives post (talk ⟨(recieveEntries ⟨0, .client⟩ x n buffer).bind k, r, [], false⟩
      ⟨.loop i (sendEntry ⟨0, .server⟩ p) k₁, s, [], false⟩ true) := by
  induction n generalizing i r buffer with
  | zero =>
    have none := rest (r.mem.coms x).ipHash (by simp [copyEntries, Coms.table])
    rw [setComs_self] at none
    exact none
  | succ n ih =>
    have here : i < (s.mem.coms p).ipHash.entries.length := by omega
    refine entry_passes x p n i r s buffer neat _ (List.getElem?_eq_getElem here) fun buffer => ?_
    refine ih (i + 1) _ buffer (by omega) fun hash copied => ?_
    rw [show i + 1 + n = i + (n + 1) by omega]
    simp only [setComs_same, setComs_setComs] at copied ⊢
    apply rest
    rw [copied, List.drop_eq_getElem_cons here, List.take_succ_cons]
    simp only [copyEntries, List.foldl_cons, Coms.table, Finmap.insert_toFinmap]

/-- The sender leaves its loop after the last entry. -/
theorem sender_leaves (p : UInt16) (i : Nat) (a : End platform Local) (s : Local)
    (inbox : List Bytes) (past : (s.mem.coms p).ipHash.entries[i]? = none)
    (rest : Arrives post (talk a ⟨k₁ 0, s, inbox, false⟩ true)) :
    Arrives post (talk a ⟨.loop i (sendEntry ⟨0, .server⟩ p) k₁, s, inbox, false⟩ true) := by
  refine sender_moves rfl ?_
  simp only [unroll, sendEntry, act, recv, send, request, bind_eq, pure_eq, call_bind, ret_bind,
    End.hear_nil, Bool.or_false]
  refine sender_moves rfl ?_
  simp only [past, ret_bind, End.hear_nil, Bool.or_false]
  exact rest

/-- A requester that has closed makes every receive of the sender end at once. -/
theorem sender_drains (p : UInt16) (n i : Nat) (s : Local) (a : UInt8) (r : Local) (inbox : List Bytes)
    (left : i + n = (s.mem.coms p).ipHash.entries.length)
    (rest : ∀ inbox, Arrives post (talk ⟨.ret a, r, inbox, true⟩ ⟨k₁ 0, s, [], false⟩ true)) :
    Arrives post (talk ⟨.ret a, r, inbox, true⟩
      ⟨.loop i (sendEntry ⟨0, .server⟩ p) k₁, s, [], false⟩ true) := by
  induction n generalizing i inbox with
  | zero => exact sender_leaves p i _ s [] (List.getElem?_eq_none (by omega)) (rest inbox)
  | succ n ih =>
    have here : i < (s.mem.coms p).ipHash.entries.length := by omega
    refine sender_moves rfl ?_
    simp only [unroll, sendEntry, act, recv, send, request, bind_eq, pure_eq, call_bind, ret_bind,
      End.hear_nil, Bool.or_false]
    refine sender_moves rfl ?_
    simp only [List.getElem?_eq_getElem here, call_bind, End.hear_nil, Bool.or_false]
    refine sender_moves rfl ?_
    simp only [Option.isNone_some, Bool.false_eq_true, if_false, call_bind, End.hear_nil, Bool.or_false]
    exact sender_moves rfl (ih (i + 1) _ (by omega))

theorem both_return (post : Exchange platform Local → Prop) (a b : UInt8) (r s : Local)
    (inbox inbox₁ : List Bytes) (closed closed₁ linked : Bool)
    (last : post (talk ⟨.ret a, r, inbox, closed⟩ ⟨.ret b, s, inbox₁, closed₁⟩ linked)) :
    Arrives post (talk ⟨.ret a, r, inbox, closed⟩ ⟨.ret b, s, inbox₁, closed₁⟩ linked) := by
  refine ⟨_, .refl, ?_, last⟩
  rintro _ ⟨side, _, _, _, step, _⟩
  cases side with
  | client => cases step
  | server => cases step

/-- What the requester ends with: the entries that the count announces, and the version
where these are all. -/
def Announced (x : UInt16) (c : Coms) (X : Exchange platform Local) : Prop :=
  (X.ends .client).program = .ret 0 ∧
    ((X.ends .client).env.mem.coms x).table =
      copyEntries ∅ (c.ipHash.entries.take (c.ipHash.entries.length % 256)) ∧
    (c.ipHash.entries.length ≤ 255 → ((X.ends .client).env.mem.coms x).versionNum = c.versionNum)

theorem transfer_arrives (x p : UInt16) (r s : Local) (neat : Neat (s.mem.coms p).ipHash.entries) :
    Arrives (Announced x (s.mem.coms p)) (transferStart x p r s) := by
  simp only [transferStart, requestHosts, processNextRequest, connectToTcp, createTcpConnections,
    recvUnchecked, recv, send, close, act, request, bind_eq, pure_eq, call_bind, ret_bind]
  refine requester_moves rfl (requester_moves rfl (requester_moves rfl ?_))
  simp only [Bool.not_true, Bool.false_eq_true, if_false, End.hear_nil, Bool.or_false]
  refine sender_moves rfl (sender_moves rfl ?_)
  simp only [List.take_succ_cons, List.take_zero, if_true, sendEntireFile, sendEntries, act, recv, send,
    request, bind_eq, pure_eq, call_bind, ret_bind, loop_bind, End.hear_nil, Bool.or_false]
  refine sender_moves rfl (sender_moves rfl ?_)
  simp only [Bool.not_true, Bool.false_eq_true, if_false, loop_bind, End.hear, Bool.or_false]
  refine requester_moves rfl (requester_moves rfl ?_)
  simp only
  have count : (UInt8.ofNat (s.mem.coms p).ipHash.entries.length).toNat =
      (s.mem.coms p).ipHash.entries.length % 256 := UInt8.toNat_ofNat'
  refine entries_pass x p _ 0 _ s _ neat ?_ fun hash copied => ?_
  · rw [count]
    omega
  simp only [setComs_same, setComs_setComs, List.drop_zero] at copied ⊢
  rw [count] at copied ⊢
  rw [if_neg (by simp)]
  refine requester_moves rfl ?_
  simp only [Bool.not_true, Bool.false_eq_true, if_false, End.hear, List.nil_append, Bool.or_false]
  by_cases few : (s.mem.coms p).ipHash.entries.length ≤ 255
  · refine sender_leaves p _ _ s _ (List.getElem?_eq_none (by omega)) ?_
    rw [if_neg (by simp)]
    simp only [call_bind]
    refine sender_moves rfl ?_
    simp only [Option.isNone_some, Bool.false_eq_true, if_false, call_bind, End.hear_nil, Bool.or_false]
    refine sender_moves rfl (sender_moves rfl (sender_moves rfl ?_))
    simp only [End.hear, List.append_nil, List.nil_append, Bool.or_false]
    refine requester_moves rfl ?_
    simp only [List.take_succ_cons, List.take_zero, ret_bind, End.hear, List.append_nil, Bool.or_false]
    refine requester_moves rfl (requester_moves rfl ?_)
    refine both_return _ 0 _ _ _ _ _ _ _ _ ⟨rfl, ?_, fun _ => ?_⟩
    · simp only [talk, setComs_same]
      exact copied
    · simp only [talk, setComs_same]
  · have inside : (s.mem.coms p).ipHash.entries.length % 256 < (s.mem.coms p).ipHash.entries.length := by
      omega
    -- The requester takes the first byte of the next entry for the version.
    obtain ⟨⟨d, ip⟩, at_⟩ : ∃ entry, (s.mem.coms p).ipHash.entries[0 +
        (s.mem.coms p).ipHash.entries.length % 256]? = some entry :=
      ⟨_, List.getElem?_eq_getElem (by omega)⟩
    obtain ⟨byte, tail, text⟩ : ∃ byte tail, entryText d ip = byte :: tail := by
      apply List.exists_cons_of_ne_nil
      simp [entryText]
    refine sender_sends p _ _ s _ at_ ?_
    rw [text]
    simp only [End.hear, List.nil_append]
    refine requester_moves rfl ?_
    simp only [List.take_succ_cons, List.take_zero, ret_bind, End.hear, List.append_nil, Bool.or_false]
    refine requester_moves rfl (requester_moves rfl ?_)
    simp only [End.hear, List.append_nil, Bool.or_false]
    refine sender_drains p ((s.mem.coms p).ipHash.entries.length - (s.mem.coms p).ipHash.entries.length % 256 - 1)
      _ s 0 _ _ (by omega) fun inbox => ?_
    rw [if_neg (by simp)]
    simp only [call_bind]
    refine sender_moves rfl ?_
    simp only [Option.isNone_some, Bool.false_eq_true, if_false, call_bind, End.hear_nil, Bool.or_false]
    refine sender_moves rfl (sender_moves rfl (sender_moves rfl ?_))
    refine both_return _ 0 _ _ _ _ _ _ _ _ ⟨rfl, ?_, fun few' => absurd few' few⟩
    simp only [talk, End.hear, setComs_same]
    exact copied

end

/-- A table is made up of no fewer entries than all. -/
theorem copyEntries_take (hash : Hash) (n : Nat) (short : n < hash.entries.length) :
    copyEntries ∅ (hash.entries.take n) ≠ hash.toFinmap := by
  intro same
  have split : hash.entries = hash.entries.take n ++ hash.entries[n] :: hash.entries.drop (n + 1) := by
    rw [← List.drop_eq_getElem_cons short, List.take_append_drop]
  have distinct := hash.nodupKeys
  rw [split, List.NodupKeys, List.keys_append, List.keys_cons] at distinct
  have before : hash.entries[n].1 ∉ (hash.entries.take n).keys := by
    intro member
    exact List.disjoint_of_nodup_append distinct member List.mem_cons_self
  have found := congrArg (Finmap.lookup hash.entries[n].1) same
  rw [lookup_copyEntries ∅ (hash.nodupKeys.sublist (List.take_sublist _ _)),
    List.dlookup_eq_none.mpr before, Finmap.lookup_empty, Option.or_none, Finmap.lookup_toFinmap] at found
  have stored : hash.lookup hash.entries[n].1 = some hash.entries[n].2 :=
    (List.mem_dlookup_iff hash.nodupKeys).mpr (List.getElem_mem short)
  rw [stored] at found
  cases found

theorem transfer_ends (x p : UInt16) (r s : Local) (neat : Neat (s.mem.coms p).ipHash.entries) :
    Ends (Exchange.Moves localAnswer) (transferStart x p r s) (Announced x (s.mem.coms p)) := by
  obtain ⟨Y, run, stuck, last⟩ := transfer_arrives x p r s neat
  exact Exchange.diamond.ends run stuck last

theorem transfer_short (x p : UInt16) (r s : Local) (neat : Neat (s.mem.coms p).ipHash.entries)
    (many : 255 < (s.mem.coms p).ipHash.entries.length) :
    ¬ Ends (Exchange.Moves localAnswer) (transferStart x p r s) (Copied x (s.mem.coms p)) := by
  intro copied
  obtain ⟨X, ⟨_, table, _⟩, _, same, _⟩ := ((transfer_ends x p r s neat).and copied).exists
  refine copyEntries_take (s.mem.coms p).ipHash _ ?_ (table.symm.trans same)
  omega

/-- Whatever the interleaving, the exchange comes to an end with the requester returning 0, and
with the sender's table and version exactly when the entries can be counted in one byte. -/
theorem transfer_exact_iff (x p : UInt16) (r s : Local) (neat : Neat (s.mem.coms p).ipHash.entries) :
    Ends (Exchange.Moves localAnswer) (transferStart x p r s) (Copied x (s.mem.coms p)) ↔
      (s.mem.coms p).ipHash.entries.length ≤ 255 := by
  constructor
  · intro copied
    by_contra many
    exact transfer_short x p r s neat (Nat.lt_of_not_le many) copied
  · intro few
    refine (transfer_ends x p r s neat).mono ?_
    rintro X ⟨returned, table, version⟩
    refine ⟨returned, ?_, version few⟩
    rw [table, Nat.mod_eq_of_lt (by omega), List.take_length]
    exact copyEntries_hash _

/-- A server at version 1 with the table, its uninitialised memory all zero. -/
def holding (table : Hash) : Local where
  mem := (startMem .roundRobin).setComs 2 { emptyComs 2 with ipHash := table, versionNum := 1 }
  locals := zeros

/-- The only entry is `new_domain`. -/
def oneEntry : Hash := AList.singleton (addNewDomain 1).domain (addNewDomain 1).ip

theorem transfer_exact_one :
    Ends (Exchange.Moves localAnswer) (transferStart 1 2 (holding ∅) (holding oneEntry))
      (Copied 1 ((holding oneEntry).mem.coms 2)) := by
  have neat : Neat ((holding oneEntry).mem.coms 2).ipHash.entries := by
    refine ⟨?_, ?_, ?_⟩
    · rintro _ (_ | ⟨_, ⟨⟩⟩)
      exact ⟨by decide, by decide, by decide⟩
    · decide
    · decide
  exact (transfer_exact_iff 1 2 (holding ∅) (holding oneEntry) neat).mpr (by decide)

/-- The `i`th of 256 domains of two letters. -/
def manyDomain (i : Nat) : Bytes := [97 + UInt8.ofNat (i / 16), 97 + UInt8.ofNat (i % 16)]

def manyEntries : Hash where
  entries := (List.range 256).map fun i => ⟨manyDomain i, [49]⟩
  nodupKeys := by
    let index (d : Bytes) : Nat := (d.headD 0 - 97).toNat * 16 + (d.tail.headD 0 - 97).toNat
    have restored : ((List.range 256).map manyDomain).map index = List.range 256 := by decide +kernel
    have distinct := List.Nodup.of_map index (restored ▸ List.nodup_range)
    simpa [List.NodupKeys, List.keys, Function.comp_def] using distinct

theorem manyEntries_neat : Neat manyEntries.entries := by
  have letters : ∀ i < 256, space ∉ manyDomain i ∧ 0 ∉ manyDomain i := by decide +kernel
  refine ⟨?_, ?_, ?_⟩
  · intro entry member
    obtain ⟨i, inside, rfl⟩ := List.mem_map.mp member
    obtain ⟨noSpace, noZero⟩ := letters i (List.mem_range.mp inside)
    exact ⟨by simp [manyDomain], noSpace, noZero⟩
  · intro entry member
    obtain ⟨i, _, rfl⟩ := List.mem_map.mp member
    change (0 : UInt8) ∉ [49]
    decide
  · intro entry member
    obtain ⟨i, _, rfl⟩ := List.mem_map.mp member
    simp [entryText, manyDomain, textSize]

/-- With 256 entries the count is sent as 0 and the requester ends with an empty table. -/
theorem many_entries_lost :
    (∀ entry ∈ ((holding manyEntries).mem.coms 2).ipHash.entries, Clean entry.1) ∧
    ¬ Ends (Exchange.Moves localAnswer) (transferStart 1 2 (holding ∅) (holding manyEntries))
      (Copied 1 ((holding manyEntries).mem.coms 2)) := by
  have kept : ((holding manyEntries).mem.coms 2).ipHash = manyEntries := by simp [holding]
  have neat : Neat ((holding manyEntries).mem.coms 2).ipHash.entries := by
    rw [kept]
    exact manyEntries_neat
  refine ⟨neat.domain, transfer_short 1 2 _ _ neat ?_⟩
  rw [kept]
  simp [manyEntries]

end DnsServer
