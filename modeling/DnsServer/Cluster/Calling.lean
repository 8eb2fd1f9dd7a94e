import DnsServer.Cluster.Conduct

/-! The calls that issue updates and join servers follow the protocol. -/
namespace DnsServer
open Process Program Memory

section
variable {calls : Nat → ClusterCall} {object : Bytes → Server} {t : ClusterThread} {s : Position}

/-- At the end of a session all contents are in the caller's hands. -/
structure Calling (s : Position) (router : Socket) (τ : Talk) (coms : UInt16 → Coms) : Prop where
  own : s.ends router = some τ
  side : router.side = .client
  cells : s.cells = .all coms

theorem recievePorts_obeys (n i : Nat) (inside : i + n = ports.length)
    (calling : Calling s router (.listing ports coms i) coms') :
    (recievePorts router n (ports.take i)).Obeys (conduct calls object t)
      (fun listed s₁ => listed = some ports ∧ Calling s₁ router (.listing ports coms ports.length) coms') s := by
  induction n generalizing i s with
  | zero =>
    obtain rfl : i = ports.length := inside
    rw [List.take_length]
    exact ⟨rfl, calling⟩
  | succ n ih =>
    simp only [recievePorts, recievePort, send, recv, request, bind_eq, pure_eq, call_bind, ret_bind]
    have here : i < ports.length := by omega
    refine obeys_send calling.own (by rw [calling.side]; rfl) (.ack here) none_within (by rintro ⟨⟩) ?_
    simp only [Bool.not_true, Bool.false_eq_true, if_false]
    refine obeys_recv (Function.update_self _ _ _) (by rw [calling.side]; rfl) fun msg τ₁ said => ?_
    cases said with
    | port at_ =>
      rename_i port
      refine ⟨by rintro _ ⟨⟩; rfl, ?_⟩
      simp only [Option.getD_some, ret_bind, word_bytes]
      have taken : ports.take i ++ [port] = ports.take (i + 1) := by
        rw [List.take_add_one, at_]
        rfl
      rw [taken]
      refine ih (i + 1) (by omega) ⟨Function.update_self _ _ _, calling.side, ?_⟩
      change Cells.plus (Cells.minus s.cells .none) .none = _
      rw [minus_none, plus_none]
      exact calling.cells

/-- A session begins with the announcement of the rotation. -/
theorem obeys_session {f : Socket → Option (List UInt16) → Proc α} {post : α → Position → Prop}
    (next : ∀ router ports coms s₁, Listed ports coms →
      Calling s₁ router (.listing ports coms ports.length) coms →
      (f router (some ports)).Obeys (conduct calls object t) post s₁) :
    (@Program.call platform.interface α (.connect routerTcpPortNum) fun router =>
      (recvUnchecked router).bind fun portCnt =>
        (recievePorts router portCnt.toNat []).bind (f router)).Obeys (conduct calls object t) post s := by
  refine obeys_connect fun router _ side => ?_
  have greeted : greeting routerTcpPortNum = .asked := if_pos rfl
  rw [greeted]
  simp only [recvUnchecked, recv, request, bind_eq, pure_eq, call_bind, ret_bind]
  refine obeys_recv (Function.update_self _ _ _) (by rw [side]; rfl) fun msg τ₁ said => ?_
  cases said with
  | count few listed =>
    rename_i ports coms
    refine ⟨by rintro _ ⟨⟩; rfl, ?_⟩
    have number : (UInt8.ofNat ports.length).toNat = ports.length := by
      simp only [UInt8.toNat_ofNat']
      omega
    simp only [Option.getD_some, ret_bind, number]
    have calling : Calling ((s.meet router .asked).hear router (.listing ports coms 0)) router
        (.listing ports coms 0) coms := ⟨Function.update_self _ _ _, side, rfl⟩
    refine .bind ((recievePorts_obeys ports.length 0 (by omega) calling).mono ?_)
    rintro _ s₁ ⟨rfl, calling⟩
    exact next router ports coms s₁ listed calling

/-- A server's contents come back from one that they were lent to. -/
theorem lent_back (coms : UInt16 → Coms) (p : UInt16) (c c' : Coms) :
    ((Cells.all coms).minus (.only p c)).plus (.only p c') = .all (Function.update coms p c') := by
  rw [plus_only]
  funext q
  by_cases same : q = p
  · subst same
    simp [Cells.all]
  · simp [Cells.minus, Cells.only, Cells.all, Cells.none, same]

/-! Updates. -/

/-- The update has been made of `c`, unless it was at the id. -/
structure Done (u : Update) (c c' : Coms) : Prop where
  versionNum : c'.versionNum = u.id
  table : c'.table = if c.versionNum = u.id then c.table else u.apply c.table

def OnTheWay (u : Update) (c c' : Coms) : Prop :=
  c'.table = c.table ∧ c'.versionNum = c.versionNum ∨ Done u c c'

/-- A server at the id has nothing to do. -/
theorem OnTheWay.fresh (way : OnTheWay u c c') (atId : c'.versionNum = u.id) : Done u c c' := by
  rcases way with ⟨table, version⟩ | done
  · exact ⟨atId, by rw [if_pos (version.symm.trans atId)]; exact table⟩
  · exact done

theorem OnTheWay.stale (way : OnTheWay u c c') (away : c'.versionNum ≠ u.id)
    (table : c''.table = u.apply c'.table) (version : c''.versionNum = u.id) : Done u c c'' := by
  rcases way with ⟨table', version'⟩ | done
  · refine ⟨version, ?_⟩
    rw [if_neg (version' ▸ away), table, table']
  · exact absurd done.versionNum away

/-- A server that was away from the id may be updated once more. -/
theorem OnTheWay.again (way : OnTheWay u c c') (away : c.versionNum ≠ u.id)
    (table : c''.table = u.apply c'.table) (version : c''.versionNum = u.id) : Done u c c'' := by
  refine ⟨version, ?_⟩
  rw [if_neg away, table]
  rcases way with ⟨table', _⟩ | done
  · rw [table']
  · rw [done.table, if_neg away, u.apply_apply]

/-- How the servers at the ports have fared when the first `i` have been seen to. -/
structure Progress (u : Update) (ownPort : UInt16) (ports : List UInt16) (coms coms' : UInt16 → Coms)
    (i : Nat) : Prop where
  each : ∀ p ∈ ports, OnTheWay u (coms p) (coms' p)
  before : ∀ p ∈ ports.take i, p ≠ ownPort → Done u (coms p) (coms' p)

theorem Progress.next {coms' : UInt16 → Coms} (progress : Progress u ownPort ports coms coms' i)
    (at_ : ports[i]? = some port) (done : port ≠ ownPort → Done u (coms port) (coms' port)) :
    Progress u ownPort ports coms coms' (i + 1) := by
  refine ⟨progress.each, fun p member other => ?_⟩
  rw [List.take_add_one, at_] at member
  rcases List.mem_append.mp member with earlier | here
  · exact progress.before p earlier other
  · obtain rfl : p = port := by simpa using here
    exact done other

theorem Progress.update {coms' : UInt16 → Coms} (progress : Progress u ownPort ports coms coms' i)
    (done : Done u (coms p) c) : Progress u ownPort ports coms (Function.update coms' p c) i := by
  constructor
  · intro q member
    by_cases same : q = p
    · subst same
      rw [Function.update_self]
      exact .inr done
    · rw [Function.update_of_ne same]
      exact progress.each q member
  · intro q member other
    by_cases same : q = p
    · subst same
      rw [Function.update_self]
      exact done
    · rw [Function.update_of_ne same]
      exact progress.before q member other

theorem contactPeers_obeys (u : Update) (clean : u.Clean) (fits : u.Fits)
    (apart : ∀ p ∈ ports, p ≠ routerTcpPortNum)
    (fair : ∀ i : Nat, ∀ port ∈ ports[i]?, (i : Int) = fail.toInt → port = ownPort)
    (i : Nat) (rest : List UInt16) (left : ports.drop i = rest) (someStale someFresh : Bool)
    {coms' : UInt16 → Coms} (calling : Calling s router τ coms')
    (progress : Progress u ownPort ports coms coms' i) :
    (contactPeers u ownPort fail i rest someStale someFresh).Obeys (conduct calls object t)
      (fun result s₁ => ∃ flags coms', result = some flags ∧ Calling s₁ router τ coms' ∧
        Progress u ownPort ports coms coms' ports.length) s := by
  induction rest generalizing i someStale someFresh s coms' with
  | nil =>
    have all : ports.take i = ports := List.take_of_length_le (List.drop_eq_nil_iff.mp left)
    refine ⟨_, coms', rfl, calling, progress.each, ?_⟩
    rw [List.take_length]
    rw [← all]
    exact all ▸ progress.before
  | cons port rest ih =>
    have at_ : ports[i]? = some port := by
      rw [← List.head?_drop, left]
      rfl
    have left' : ports.drop (i + 1) = rest := by
      rw [← List.tail_drop, left]
      rfl
    have member : port ∈ ports := List.mem_of_getElem? at_
    simp only [contactPeers, connectToTcp, recvByte, send, recv, close, request, bind_eq, pure_eq,
      call_bind, ret_bind]
    split
    · next own => exact ih (i + 1) left' _ _ calling (progress.next at_ fun other => absurd own other)
    next other =>
    rw [if_neg fun named => other (fair i port at_ named)]
    refine obeys_connect fun peer fresh side => ?_
    have greeted : greeting port = .called port := if_neg (apart port member)
    rw [greeted]
    have apart' : router ≠ peer := by
      rintro rfl
      cases fresh.symm.trans calling.own
    have held : (s.meet peer (.called port)).cells port = some (coms' port) := by
      change s.cells port = _
      rw [calling.cells]
      rfl
    refine obeys_send (Function.update_self _ _ _) (by rw [side]; rfl) .update (only_within held) (by rintro ⟨⟩) ?_
    refine obeys_recv (Function.update_self _ _ _) (by rw [side]; rfl) fun msg τ₁ said => ?_
    cases said with
    | version =>
      refine ⟨by rintro _ ⟨⟩; rfl, ?_⟩
      simp only [Option.getD_some, ret_bind]
      let s₁ := ((s.meet peer (.called port)).speak peer (.updating port (coms' port))).hear peer
        (.version port (coms' port))
      have returned : s₁.cells = .all coms' := by
        change (s.cells.minus (.only port (coms' port))).plus (.only port (coms' port)) = _
        rw [calling.cells, lent_back, Function.update_eq_self]
      have knows : s₁.ends peer = some (.version port (coms' port)) := Function.update_self _ _ _
      have own : s₁.ends router = some τ := by
        simp [s₁, Position.meet, Position.speak, Position.hear, apart', calling.own]
      split
      · next fresh =>
        have done := (progress.each port member).fresh fresh
        refine obeys_hang knows (by rw [side]; rfl) .decline none_within ?_
        refine ih (i + 1) left' _ _ ⟨?_, calling.side, returned⟩ (progress.next at_ fun _ => done)
        exact (Function.update_of_ne apart' _ _).trans own
      · next away =>
        have lends : s₁.cells port = some (coms' port) := by
          rw [returned]
          rfl
        refine obeys_send knows (by rw [side]; rfl) (.text clean fits) (only_within lends) (by rintro ⟨⟩) ?_
        refine obeys_recv (Function.update_self _ _ _) (by rw [side]; rfl) fun msg τ₁ said => ?_
        cases said with
        | apply table version =>
          rename_i c
          refine ⟨by rintro _ ⟨⟩, obeys_close (Function.update_self _ _ _) rfl ?_⟩
          have done := (progress.each port member).stale away table version
          refine ih (i + 1) left' _ _ ⟨?_, calling.side, ?_⟩
            ((progress.update done).next at_ fun _ => ?_)
          · exact (Function.update_of_ne apart' _ _).trans ((Function.update_of_ne apart' _ _).trans own)
          · change (s₁.cells.minus (.only port (coms' port))).plus (.only port c) = _
            rw [returned, lent_back]
          · rw [Function.update_self]
            exact done

/-- All servers are in step when the update has been made of each. -/
theorem InStep.done {coms' : UInt16 → Coms} (same : InStep ports coms)
    (done : ∀ p ∈ ports, Done u (coms p) (coms' p)) : InStep ports coms' := by
  constructor
  · intro p inP q inQ
    rw [(done p inP).table, (done q inQ).table, same.table p inP q inQ, same.versionNum p inP q inQ]
  · intro p inP q inQ
    rw [(done p inP).versionNum, (done q inQ).versionNum]

/-- Once the initiator has seen to itself too the update has been made everywhere. -/
theorem Progress.finish {coms' : UInt16 → Coms}
    (progress : Progress u ownPort ports coms coms' ports.length)
    (own : ownPort ∈ ports → Done u (coms ownPort) (coms' ownPort)) :
    ∀ p ∈ ports, Done u (coms p) (coms' p) := by
  intro p member
  by_cases same : p = ownPort
  · subst same
    exact own member
  · exact progress.before p (by rwa [List.take_length]) same

theorem updateHosts_obeys (ownPort : UInt16) (u : Update) (clean : u.Clean) (fits : u.Fits) (fail : Int8)
    (call_ : calls n = .update ownPort u fail) :
    (updateHosts ownPort u.remove u.domain u.ip ownPort u.id fail).Obeys (conduct calls object (.caller n))
      (fun _ _ => True) s := by
  simp only [updateHosts, connectToTcp, send, close, act, request, bind_eq, pure_eq, call_bind, ret_bind]
  split
  · trivial
  refine obeys_session fun router ports coms s₁ listed calling => ?_
  have held : ∀ {s₁ : Position} {coms : UInt16 → Coms}, s₁.cells = .all coms →
      s₁.cells ownPort = some (coms ownPort) := by
    rintro s₁ coms all
    rw [all]
    rfl
  refine obeys_versionNum (held calling.cells) fun promised => ?_
  have fair : ∀ i : Nat, ∀ port ∈ ports[i]?, (i : Int) = fail.toInt → port = ownPort := by
    have promise := promised router _ ports calling.own rfl n rfl
    rw [call_] at promise
    exact promise
  have start : Progress u ownPort ports coms coms 0 := ⟨fun p _ => .inl ⟨rfl, rfl⟩, by simp⟩
  refine .bind ((contactPeers_obeys u clean fits listed.apart fair 0 ports rfl false false calling start).mono ?_)
  rintro _ s₂ ⟨⟨someStale, someFresh⟩, coms₂, rfl, calling₂, progress⟩
  have finish : ∀ (s₃ : Position) (coms₃ : UInt16 → Coms) (code : UInt8),
      Calling s₃ router (.listing ports coms ports.length) coms₃ →
      (∀ p ∈ ports, Done u (coms p) (coms₃ p)) →
      (@Program.call platform.interface UInt8 (.send router [0, 0, 0, 0, 0, 0, 0, 0]) fun _ =>
        @Program.call platform.interface UInt8 (.close router) fun _ => .ret code).Obeys
          (conduct calls object (.caller n)) (fun _ _ => True) s₃ := by
    intro s₃ coms₃ code calling₃ done
    have listed₃ : Listed (joined object ports [0, 0, 0, 0, 0, 0, 0, 0]) coms₃ := by
      rw [joined, if_pos (by decide)]
      exact ⟨listed.toInStep.done done, listed.apart⟩
    refine obeys_send calling₃.own (by rw [calling₃.side]; rfl) (.reply rfl listed₃) ?_ (by rintro ⟨⟩) ?_
    · intro p c given
      rw [calling₃.cells]
      exact given
    · exact obeys_close (Function.update_self _ _ _) rfl trivial
  dsimp only
  split
  · next stale =>
    have away : (coms ownPort).versionNum ≠ u.id := by simpa using stale
    refine .bind ((actuallyUpdate_obeys u clean fits (held calling₂.cells)).mono ?_)
    rintro _ _ ⟨c, rfl, table, version⟩
    refine finish _ (Function.update coms₂ ownPort c) _ ⟨calling₂.own, calling₂.side, ?_⟩ ?_
    · rw [setCell_cells, calling₂.cells]
      funext q
      by_cases same : q = ownPort
      · subst same
        simp [Cells.all]
      · simp [Cells.all, same]
    · intro p member
      by_cases same : p = ownPort
      · subst same
        rw [Function.update_self]
        exact (progress.each p member).again away table version
      · rw [Function.update_of_ne same]
        exact progress.before p (by rwa [List.take_length]) same
  · next fresh =>
    have atId : (coms ownPort).versionNum = u.id := by simpa using fresh
    refine finish s₂ coms₂ _ calling₂ (progress.finish fun member => ?_)
    refine (progress.each ownPort member).fresh ?_
    rcases progress.each ownPort member with ⟨_, version⟩ | done
    · exact version.trans atId
    · exact done.versionNum

/-! Joins. -/

theorem recieveEntries_obeys (n i : Nat) (inside : i + n = c.ipHash.entries.length)
    (neat : Neat c.ipHash.entries) (buffer : Bytes) (own : s.ends socket = some (.item p c i))
    (side : socket.side = .client) (held : s.cells x = some d)
    (copied : d.table = copyEntries ∅ (c.ipHash.entries.take i)) :
    (recieveEntries socket x n buffer).Obeys (conduct calls object t)
      (fun code s₁ => code = 0 ∧ ∃ d' : Coms, d'.table = c.table ∧
        s₁ = (s.setCell x d').meet socket (.item p c c.ipHash.entries.length)) s := by
  induction n generalizing i s d buffer with
  | zero =>
    obtain rfl : i = c.ipHash.entries.length := inside
    rw [List.take_length, copyEntries_hash] at copied
    refine ⟨rfl, d, copied, ?_⟩
    simp only [Position.meet, Position.setCell]
    rw [← own, ← held, Function.update_eq_self, Function.update_eq_self]
  | succ n ih =>
    simp only [recieveEntries, send, act, request, bind_eq, pure_eq, call_bind, ret_bind]
    refine obeys_send own (by rw [side]; rfl) (.want (by omega)) none_within (by rintro ⟨⟩) ?_
    simp only [Bool.not_true, Bool.false_eq_true, if_false]
    refine obeys_recieveText buffer (Function.update_self _ _ _) (by rw [side]; rfl) fun msg τ₁ said => ?_
    cases said with
    | last => omega
    | entry at_ =>
      rename_i entry
      obtain ⟨domain, ip⟩ := entry
      have member := List.mem_of_getElem? at_
      have text := entryText_terminated domain ip
      refine .inl ⟨domain ++ space :: ip, congrArg some text, text ▸ neat.fits _ member, ?_⟩
      have reads := decodeEntry_text (neat.domain _ member) (neat.ip _ member)
        (buffer.drop ((domain ++ space :: ip).length + 1))
      rw [← text]
      simp only [reads]
      have cells : ((s.speak socket (.wanted p c i)).hear socket (.item p c (i + 1))).cells = s.cells :=
        (plus_none _).trans (minus_none _)
      refine obeys_insert ((congrFun cells x).trans held) (neat.only member) fun d' table _ => ?_
      have next : d'.table = copyEntries ∅ (c.ipHash.entries.take (i + 1)) := by
        rw [table, copied, List.take_add_one, at_]
        simp [copyEntries]
      refine (ih (i + 1) (by omega) _ (Function.update_self _ _ _) (Function.update_self _ _ _) next).mono ?_
      rintro _ _ ⟨rfl, d₁, table₁, rfl⟩
      refine ⟨rfl, d₁, table₁, ?_⟩
      rw [setCell_setCell]
      simp only [Position.meet, Position.setCell, cells]
      simp [Position.speak, Position.hear]

/-- A joiner in a session gets the table and the version of the member that it asks. -/
theorem requestHosts_obeys (listed : Listed ports coms) (calling : Calling s router τ coms)
    (session : τ.session = some ports) (member : p ∈ ports) (call_ : calls n = .join x) :
    (requestHosts x.tcpPortNum p).Obeys (conduct calls object (.caller n))
      (fun code s₁ => code = 0 ∧ ∃ d : Coms, x.tcpPortNum ∉ ports ∧ d.table = (coms p).table ∧
        d.versionNum = (coms p).versionNum ∧
        Calling s₁ router τ (Function.update coms x.tcpPortNum d)) s := by
  simp only [requestHosts, connectToTcp, recvUnchecked, send, recv, close, act, request, bind_eq, pure_eq,
    call_bind, ret_bind]
  have all : ∀ q, s.cells q = some (coms q) := by
    intro q
    rw [calling.cells]
    rfl
  refine obeys_clear (all _) fun promised => ?_
  have new : x.tcpPortNum ∉ ports := by
    have promise := promised router τ ports calling.own session n rfl
    rw [call_] at promise
    exact promise
  have other : p ≠ x.tcpPortNum := fun same => new (same ▸ member)
  have greeted : greeting p = .called p := if_neg (listed.apart p member)
  refine obeys_connect fun peer fresh side => ?_
  rw [greeted]
  have apart : router ≠ peer := by
    rintro rfl
    cases fresh.symm.trans calling.own
  -- The member lends what it has until the last byte.
  have lends : (Function.update s.cells x.tcpPortNum (some { coms x.tcpPortNum with ipHash := ∅ })) p =
      some (coms p) := by
    rw [Function.update_of_ne other]
    exact all p
  refine obeys_send (Function.update_self _ _ _) (by rw [side]; rfl) .copy (only_within lends) (by rintro ⟨⟩) ?_
  simp only [Bool.not_true, Bool.false_eq_true, if_false]
  refine obeys_recv (Function.update_self _ _ _) (by rw [side]; rfl) fun msg τ₁ said => ?_
  cases said with
  | total sendable =>
    refine ⟨by rintro _ ⟨⟩; rfl, ?_⟩
    have number : (UInt8.ofNat (coms p).ipHash.entries.length).toNat = (coms p).ipHash.entries.length := by
      have few := sendable.few
      simp only [UInt8.toNat_ofNat']
      omega
    simp only [Option.getD_some, ret_bind, number]
    refine obeys_garbage fun bytes => ?_
    have own : Position.cells (((s.setCell x.tcpPortNum { coms x.tcpPortNum with ipHash := ∅ }).meet peer
        (.called p)).speak peer (.copying p (coms p)) |>.hear peer (.item p (coms p) 0)) x.tcpPortNum =
        some { coms x.tcpPortNum with ipHash := ∅ } := by
      change Cells.plus (Cells.minus (Function.update _ _ _) (.only p (coms p))) .none _ = _
      rw [plus_none]
      simp [Cells.minus, Cells.only, Cells.none, Ne.symm other]
    refine .bind ((recieveEntries_obeys _ 0 (Nat.zero_add _) sendable.toNeat bytes.val
      (Function.update_self _ _ _) side own rfl).mono ?_)
    rintro _ _ ⟨rfl, d, table, rfl⟩
    rw [if_neg (by simp)]
    refine obeys_send (Function.update_self _ _ _) (by rw [show peer.side = _ from side]; rfl)
      (.want (Nat.le_refl _)) none_within (by rintro ⟨⟩) ?_
    simp only [Bool.not_true, Bool.false_eq_true, if_false]
    refine obeys_recv (Function.update_self _ _ _) (by rw [show peer.side = _ from side]; rfl)
      fun msg τ₁ said => ?_
    cases said with
    | entry past => simp at past
    | last =>
      refine ⟨by rintro _ ⟨⟩; rfl, ?_⟩
      simp only [Option.getD_some, ret_bind]
      refine obeys_setVersionNum (c := d) ?_ ?_
      · change Cells.plus _ (.only p (coms p)) _ = _
        rw [plus_only, Function.update_of_ne other.symm]
        exact Function.update_self _ _ _
      refine obeys_close (Function.update_self _ _ _) rfl ?_
      refine ⟨rfl, { d with versionNum := (coms p).versionNum }, new, table, rfl, ?_, calling.side, ?_⟩
      · simp only [setCell_ends, Position.meet, Position.speak, Position.hear]
        simpa [apart] using calling.own
      · change Function.update (Cells.plus _ (.only p (coms p))) _ _ = _
        rw [plus_only]
        funext q
        by_cases joiner : q = x.tcpPortNum
        · subst joiner
          simp [Cells.all]
        by_cases asked : q = p
        · subst asked
          simp [Cells.all, joiner]
        · simp [Position.meet, Position.setCell, Position.speak, Position.hear, Talk.load, Cells.minus, Cells.plus,
            Cells.only, Cells.none, Cells.all, joiner, asked, all]

theorem updateAndOnline_obeys (valid : (ClusterCall.join x).Valid object) (call_ : calls n = .join x) :
    (updateAndOnline x).Obeys (conduct calls object (.caller n)) (fun _ _ => True) s := by
  obtain ⟨size, nonzero, leads, apart⟩ := valid
  simp only [updateAndOnline, connectToTcp, send, close, request, bind_eq, pure_eq, call_bind, ret_bind]
  refine obeys_session fun router ports coms s₁ listed calling => ?_
  cases ports with
  | nil =>
    simp only [requestAny, pure_eq, ret_bind, Bool.not_false, if_true]
    refine obeys_hang calling.own (by rw [calling.side]; rfl) .giveUp none_within ?_
    trivial
  | cons p ports =>
    have member : p ∈ p :: ports := List.mem_cons_self
    simp only [requestAny, bind_eq, pure_eq, bind_assoc]
    refine .bind ((requestHosts_obeys listed calling rfl member call_).mono ?_)
    rintro _ s₂ ⟨rfl, d, new, table, version, calling₂⟩
    simp only [if_true, ret_bind, Bool.not_true, Bool.false_eq_true, if_false]
    have grown : joined object (p :: ports) x.address = p :: ports ++ [x.tcpPortNum] := by
      rw [joined, if_neg nonzero, leads]
    have same : ∀ q ∈ p :: ports ++ [x.tcpPortNum],
        (Function.update coms x.tcpPortNum d q).table = (coms p).table ∧
        (Function.update coms x.tcpPortNum d q).versionNum = (coms p).versionNum := by
      intro q inList
      by_cases joiner : q = x.tcpPortNum
      · subst joiner
        rw [Function.update_self]
        exact ⟨table, version⟩
      · rw [Function.update_of_ne joiner]
        have old : q ∈ p :: ports := by simpa [joiner] using inList
        exact ⟨listed.table q old p member, listed.versionNum q old p member⟩
    have listed₂ : Listed (joined object (p :: ports) x.address) (Function.update coms x.tcpPortNum d) := by
      rw [grown]
      refine ⟨⟨?_, ?_⟩, ?_⟩
      · intro q inQ r inR
        exact (same q inQ).1.trans (same r inR).1.symm
      · intro q inQ r inR
        exact (same q inQ).2.trans (same r inR).2.symm
      · intro q inQ
        rcases List.mem_append.mp inQ with old | own
        · exact listed.apart q old
        · rw [List.mem_singleton.mp own]
          exact apart
    refine obeys_send calling₂.own (by rw [calling₂.side]; rfl) (.reply size listed₂) ?_ (by rintro ⟨⟩) ?_
    · intro q c given
      rw [calling₂.cells]
      exact given
    · exact obeys_close (Function.update_self _ _ _) rfl trivial

end

end DnsServer
