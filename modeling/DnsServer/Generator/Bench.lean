import DnsServer.Generator.Passage
import DnsServer.Generator.Run
import DnsServer.Scoreboard.Requests

/-! A whole test at once: the generator sends its requests while the servers answer, the scoreboard scores, and
the rotation and the tables change. Datagrams are delayed, lost, repeated and reordered. -/
namespace DnsServer
open Process Relation Memory
variable {Time : Type}

/-- A request that the generator has sent: for which name, and to which server. -/
structure Sent where
  id : UInt16
  domain : Bytes
  server : Server

/-- `script` is what the test is still to do and `sending` the request that is sent and yet to be entered.
`queries` and `replies` are all datagrams ever sent: one that is lost is never taken up, one that is repeated is
taken up again. Each reply is kept with the table that its server had as it made it, and so is, in `scored`, each
answer that has found its request waiting, the latest first. -/
structure Bench (Time : Type) where
  script : List TestStep
  sending : Option (Sent × UInt8 × Time)
  entered : List Sent
  mem : Mem
  queries : List Packet
  replies : List (Bytes × Coms)
  handler : ResponseHandler Time
  scored : List (UInt16 × Coms)

def Bench.sent (e : Bench Time) : List Sent := e.entered ++ (e.sending.map (·.1)).toList

def Bench.enteredIds (e : Bench Time) : List UInt16 := e.entered.map (·.id)

/-- The ids of the requests that wait in the queue. -/
def Bench.waiting (e : Bench Time) : List UInt16 := e.handler.scoreboard.queue.map (·.id)

/-- What can happen next, among the servers `all`, while `changes` is what becomes of their tables. -/
inductive BenchStep [Zero Time] (all : Server → Prop) (changes : Mem → Mem → Prop) (domains : List Bytes)
    (domainCnt : UInt8) : Bench Time → Bench Time → Prop where
  /-- `send_to_router` as far as the call of `forward_request`. -/
  | send {id : UInt16} : e.script = .sendSingleTest id :: script → e.sending = none →
      Program.Runs (generating world error) (sendSingleTest domains domainCnt random id) (e.mem, e.queries) (some dnsId)
        (mem, queries) →
      domains[(random % domainCnt).toNat]? = some domain → e.mem.router.nextServer = some server →
      BenchStep all changes domains domainCnt e
        { e with script, sending := some (⟨id, domain, server⟩, dnsId, requestTime), mem, queries }
  /-- The rest of `send_to_router`. -/
  | enter : e.sending = some (sent, dnsId, requestTime) →
      BenchStep all changes domains domainCnt e { e with
        sending := none
        entered := e.entered ++ [sent]
        handler := { e.handler with
          scoreboard := (recieveGeneratedReq e.handler.scoreboard sent.id dnsId 0 requestTime).2 } }
  | change : e.script = step :: script → step.id = none → BenchStep all changes domains domainCnt e { e with script }
  /-- Servers join the rotation or leave it. -/
  | reroute : (∀ server ∈ router.servers, all server) →
      BenchStep all changes domains domainCnt e { e with mem := { e.mem with router } }
  | update : changes e.mem m → BenchStep all changes domains domainCnt e { e with mem := { e.mem with coms := m.coms } }
  | answer {request : Bytes} : packet ∈ e.queries → all server → server.portNum = packet.portNum →
      request.length = maxDnsBytes → reply.length = maxDnsBytes →
      queryHandler server (e.mem.coms server.tcpPortNum) request (some packet.message) dnsQuery reply =
        some (request₁, packets) →
      BenchStep all changes domains domainCnt e { e with
        replies := e.replies ++
          (packets.filter (·.portNum = clientPort)).map fun p => (p.message, e.mem.coms server.tcpPortNum) }
  | score : (message, coms) ∈ e.replies → dnsResponseHandler e.handler (some message) elapsedTime = some handler →
      BenchStep all changes domains domainCnt e { e with
        handler
        scored := if handler.dnsMessage.header.id ∈ e.waiting then (handler.dnsMessage.header.id, coms) :: e.scored
          else e.scored }

/-- Nothing has come to the router in between but a request. -/
def LeavesRouter (e e₁ : Bench Time) : Prop :=
  e₁.mem.router = e.mem.router ∨ ∃ id rest, e.script = .sendSingleTest id :: rest ∧ e₁.script = rest

/-- The beginning of a test, whatever the tables are. -/
structure BenchStart (all : Server → Prop) (arguments : Arguments) (e : Bench Time) : Prop where
  script : e.script = runTest arguments
  sending : e.sending = none
  entered : e.entered = []
  servers : ∀ server ∈ e.mem.router.servers, all server
  queries : e.queries = []
  replies : e.replies = []
  buffer : e.handler.buffer.length = maxDnsBytes
  scoreboard : e.handler.scoreboard = createScoreboard
  scored : e.scored = []

/-- The servers of a test: they are told apart by their ports, and answer to the scoreboard. -/
structure Fleet (all : Server → Prop) : Prop where
  apart : ∀ server other, all server → all other → server.portNum = other.portNum → server = other
  scoreboard : ∀ server, all server → server.scoreboardPort = clientPort

/-- The row of a request: it names the server that the request went to, and says what the latest of its answers said
that have found it waiting, which is whether the table that the answer was made from has the name. -/
structure RowOf [Zero Time] (scored : List (UInt16 × Coms)) (r : Results Time) (s : Sent) : Prop where
  named : r.id = s.id
  dnsId : r.dnsId = s.server.id.toUInt8
  rrlRemoved : r.rrlRemoved = 0
  unscored : scored.lookup s.id = none → r.recieved = 0 ∧ r.finishTime = 0 ∧ r.found = 0
  answered : ∀ coms, scored.lookup s.id = some coms →
    r.recieved = 1 ∧ r.found = if cString s.domain ∈ coms.table then 1 else 0

/-- The table is one that the server of the request had at a moment of the run from `e` to `e₁` when the request had
been sent. -/
def HadTable (step : Bench Time → Bench Time → Prop) (e e₁ : Bench Time) (s : Sent) (coms : Coms) : Prop :=
  ∃ e', ReflTransGen step e e' ∧ ReflTransGen step e' e₁ ∧ s ∈ e'.sent ∧ coms = e'.mem.coms s.server.tcpPortNum

/-- What holds all along, in a test with these ids, when the requests are answered by these tables. -/
structure BenchSound [Zero Time] (all : Server → Prop) (tables : Sent → Coms → Prop) (ids : List UInt16)
    (e : Bench Time) : Prop where
  buffer : e.handler.buffer.length = maxDnsBytes
  servers : ∀ server ∈ e.mem.router.servers, all server
  order : e.sent.map (·.id) ++ sentIds e.script = ids
  genuine : ∀ s ∈ e.sent, all s.server
  sending : ∀ p ∈ e.sending, p.2.1 = p.1.server.id.toUInt8
  queries : ∀ packet ∈ e.queries, ∃ s ∈ e.sent, packet.portNum = s.server.portNum ∧
    Crafted true s.id s.domain none packet.message
  replies : ∀ p ∈ e.replies, ∃ s ∈ e.sent, tables s p.2 ∧
    Crafted false s.id (cString s.domain) (translateIp p.2 s.domain) p.1
  scored : ∀ p ∈ e.scored, ∃ s ∈ e.entered, s.id = p.1 ∧ tables s p.2
  rows : List.Forall₂ (RowOf e.scored) e.handler.scoreboard.rows e.entered

theorem forall₂_append_split {R : α → β → Prop} {a b : List α} {l : List β} (related : List.Forall₂ R (a ++ b) l) :
    ∃ first second, l = first ++ second ∧ List.Forall₂ R a first ∧ List.Forall₂ R b second := by
  induction a generalizing l with
  | nil => exact ⟨[], l, rfl, .nil, related⟩
  | cons x a ih =>
    cases related with
    | cons here rest =>
      obtain ⟨first, second, rfl, left, right⟩ := ih rest
      exact ⟨_ :: first, second, rfl, .cons here left, right⟩

theorem forall₂_imp_mem {R S : α → β → Prop} {a : List α} {b : List β} (related : List.Forall₂ R a b)
    (imp : ∀ x ∈ a, ∀ y ∈ b, R x y → S x y) : List.Forall₂ S a b := by
  induction related with
  | nil => exact .nil
  | cons here _ ih =>
    refine .cons (imp _ List.mem_cons_self _ List.mem_cons_self here) (ih fun x left y right => ?_)
    exact imp x (List.mem_cons_of_mem _ left) y (List.mem_cons_of_mem _ right)

theorem exists_of_forall₂ {R : α → β → Prop} {a : List α} {b : List β} (related : List.Forall₂ R a b)
    (member : x ∈ a) : ∃ y ∈ b, R x y := by
  induction related with
  | nil => cases member
  | cons here _ ih =>
    rcases List.mem_cons.mp member with rfl | later
    · exact ⟨_, List.mem_cons_self, here⟩
    · obtain ⟨y, there, holds⟩ := ih later
      exact ⟨y, List.mem_cons_of_mem _ there, holds⟩

section
variable [Zero Time] {all : Server → Prop} {tables : Sent → Coms → Prop} {changes : Mem → Mem → Prop}
  {domains : List Bytes} {domainCnt : UInt8} {ids : List UInt16} {e e₁ : Bench Time}

theorem BenchStart.sound (start : BenchStart all arguments e) (tables : Sent → Coms → Prop) :
    BenchSound all tables (sentIds (runTest arguments)) e where
  buffer := start.buffer
  servers := start.servers
  order := by
    rw [Bench.sent, start.entered, start.sending, start.script]
    rfl
  genuine := by simp [Bench.sent, start.entered, start.sending]
  sending := by simp [start.sending]
  queries := by simp [start.queries]
  replies := by simp [start.replies]
  scored := by simp [start.scored]
  rows := by
    rw [start.scoreboard, start.entered]
    exact .nil

/-- What is said of the tables matters for the requests that have been sent only. -/
theorem BenchSound.mono (sound : BenchSound all tables ids e) (tables₁ : Sent → Coms → Prop)
    (covers : ∀ s ∈ e.sent, ∀ coms, tables s coms → tables₁ s coms) : BenchSound all tables₁ ids e where
  buffer := sound.buffer
  servers := sound.servers
  order := sound.order
  genuine := sound.genuine
  sending := sound.sending
  queries := sound.queries
  replies p member := by
    obtain ⟨s, there, holds, made⟩ := sound.replies p member
    exact ⟨s, there, covers s there p.2 holds, made⟩
  scored p member := by
    obtain ⟨s, there, named, holds⟩ := sound.scored p member
    exact ⟨s, there, named, covers s (List.mem_append_left _ there) p.2 holds⟩
  rows := sound.rows

/-- A request that has been sent is told by its id. -/
theorem BenchSound.told (sound : BenchSound all tables ids e) (distinct : ids.Nodup) (first : s ∈ e.sent)
    (second : s₁ ∈ e.sent) (same : s.id = s₁.id) : s = s₁ := by
  have nodup : (e.sent.map (·.id)).Nodup := by
    rw [← sound.order] at distinct
    exact distinct.of_append_left
  exact List.inj_on_of_nodup_map nodup first second same

/-- The score of another request makes no difference to a row. -/
theorem rowOf_kept {r : Results Time} {id : UInt16} (row : RowOf scored r s) (other : s.id ≠ id) (coms : Coms) :
    RowOf ((id, coms) :: scored) r s := by
  have same : ((id, coms) :: scored).lookup s.id = scored.lookup s.id := by
    rw [List.lookup_cons, beq_eq_false_iff_ne.mpr other]
  exact ⟨row.named, row.dnsId, row.rrlRemoved, same ▸ row.unscored, same ▸ row.answered⟩

/-- A row that waits for the answer takes it, and the others stay as they are. -/
theorem rowOf_answer {r : Results Time} {s₀ : Sent} (row : RowOf scored r s) (mine : s.id = s₀.id → s = s₀)
    (coms : Coms) (elapsedTime : Time) :
    RowOf ((s₀.id, coms) :: scored)
      (r.answer s₀.id (if (translateIp coms s₀.domain).isSome then 1 else 0) elapsedTime) s := by
  by_cases same : s.id = s₀.id
  · cases mine same
    have latest : ((s.id, coms) :: scored).lookup s.id = some coms := by
      rw [List.lookup_cons, beq_self_eq_true]
    rw [Results.answer, if_pos row.named]
    refine ⟨row.named, row.dnsId, row.rrlRemoved, fun none => ?_, fun coms₁ here => ?_⟩
    · cases latest.symm.trans none
    · cases latest.symm.trans here
      refine ⟨rfl, ?_⟩
      simp only [translateIp_isSome]
  · rw [answer_of_ne fun named => same (row.named.symm.trans named)]
    exact rowOf_kept row same coms

theorem sound_send (sound : BenchSound all tables ids e) {id : UInt16} (script : e.script = .sendSingleTest id :: rest)
    (idle : e.sending = none) (requested : Requested domain id e.mem e.queries dnsId mem queries server) :
    BenchSound all tables ids
      { e with script := rest, sending := some (⟨id, domain, server⟩, dnsId, requestTime), mem, queries } := by
  have before : e.sent = e.entered := by
    rw [Bench.sent, idle]
    exact List.append_nil _
  have more : ∀ s, s ∈ e.entered → s ∈ e.entered ++ [(⟨id, domain, server⟩ : Sent)] :=
    fun s member => List.mem_append_left _ member
  obtain ⟨_, currServer, _, _, rfl⟩ := requested.turned
  have order := sound.order
  rw [before, script] at order
  constructor
  · exact sound.buffer
  · exact sound.servers
  · change (e.entered ++ [(⟨id, domain, server⟩ : Sent)]).map (·.id) ++ sentIds rest = ids
    rw [← order, List.map_append, List.append_assoc]
    rfl
  · change ∀ s ∈ e.entered ++ [(⟨id, domain, server⟩ : Sent)], all s.server
    rw [List.forall_mem_append, List.forall_mem_singleton]
    exact ⟨before ▸ sound.genuine, sound.servers server requested.listed⟩
  · rintro _ ⟨⟩
    exact requested.dnsId
  · intro packet member
    have old : ∀ packet ∈ e.queries, ∃ s ∈ e.entered ++ [(⟨id, domain, server⟩ : Sent)],
        packet.portNum = s.server.portNum ∧ Crafted true s.id s.domain none packet.message := by
      intro packet member
      obtain ⟨s, there, made⟩ := sound.queries packet member
      exact ⟨s, more s (before ▸ there), made⟩
    rcases requested.sent with rfl | ⟨message, crafted, rfl⟩
    · exact old packet member
    · rcases List.mem_append.mp member with there | here
      · exact old packet there
      · rw [List.mem_singleton] at here
        subst here
        exact ⟨_, List.mem_append_right _ (List.mem_singleton_self _), rfl, crafted⟩
  · intro p member
    obtain ⟨s, there, made⟩ := sound.replies p member
    exact ⟨s, more s (before ▸ there), made⟩
  · exact sound.scored
  · exact sound.rows

theorem sound_enter (sound : BenchSound all tables ids e) (distinct : ids.Nodup)
    (sending : e.sending = some (s, dnsId, requestTime)) :
    BenchSound all tables ids { e with
      sending := none
      entered := e.entered ++ [s]
      handler := { e.handler with
        scoreboard := (recieveGeneratedReq e.handler.scoreboard s.id dnsId 0 requestTime).2 } } := by
  have before : e.sent = e.entered ++ [s] := by
    rw [Bench.sent, sending]
    rfl
  have after : (e.entered ++ [s]) ++ (Option.map (fun p : Sent × UInt8 × Time => p.1) none).toList = e.sent := by
    rw [before]
    exact List.append_nil _
  have new : s.id ∉ e.enteredIds := by
    have order := sound.order
    rw [before, List.map_append] at order
    rw [← order, List.append_assoc] at distinct
    intro member
    exact List.disjoint_of_nodup_append distinct member (List.mem_append_left _ (List.mem_singleton_self _))
  have unscored : e.scored.lookup s.id = none := by
    rw [List.lookup_eq_none_iff]
    intro p member
    obtain ⟨s₁, there, named, _⟩ := sound.scored p member
    rw [bne_iff_ne]
    intro same
    exact new (List.mem_map.mpr ⟨s₁, there, named.trans same.symm⟩)
  constructor
  · exact sound.buffer
  · exact sound.servers
  · exact (congrArg (fun l => List.map Sent.id l ++ sentIds e.script) after).trans sound.order
  · intro s₁ member
    exact sound.genuine s₁ (after ▸ member)
  · rintro _ ⟨⟩
  · intro packet member
    obtain ⟨s₁, there, made⟩ := sound.queries packet member
    exact ⟨s₁, by rwa [← after] at there, made⟩
  · intro p member
    obtain ⟨s₁, there, made⟩ := sound.replies p member
    exact ⟨s₁, by rwa [← after] at there, made⟩
  · intro p member
    obtain ⟨s₁, there, made⟩ := sound.scored p member
    exact ⟨s₁, List.mem_append_left _ there, made⟩
  · have entry : RowOf e.scored (⟨requestTime, s.id, dnsId, 0, 0, 0, 0⟩ : Results Time) s := by
      refine ⟨rfl, sound.sending _ (by rw [sending]; rfl), rfl, fun _ => ⟨rfl, rfl, rfl⟩, fun coms here => ?_⟩
      cases unscored.symm.trans here
    change List.Forall₂ _ (e.handler.scoreboard.written ++ (e.handler.scoreboard.queue ++ [_])) _
    rw [← List.append_assoc]
    exact List.rel_append sound.rows (.cons entry .nil)

theorem sound_answer (sound : BenchSound all tables ids e) (fleet : Fleet all) (quiet : pingId ∉ ids)
    {request reply : Bytes} (sent : packet ∈ e.queries) (genuine : all server) (here : server.portNum = packet.portNum)
    (holds : ∀ s ∈ e.sent, s.server = server → tables s (e.mem.coms server.tcpPortNum))
    (full : request.length = maxDnsBytes) (size : reply.length = maxDnsBytes)
    (answered : queryHandler server (e.mem.coms server.tcpPortNum) request (some packet.message) dnsQuery reply =
      some (request₁, packets)) :
    BenchSound all tables ids { e with
      replies := e.replies ++
        (packets.filter (·.portNum = clientPort)).map fun p => (p.message, e.mem.coms server.tcpPortNum) } := by
  obtain ⟨s, member, port, crafted⟩ := sound.queries packet sent
  have mine : server = s.server := fleet.apart server s.server genuine (sound.genuine s member) (here.trans port)
  have notPing : s.id ≠ pingId := by
    intro same
    apply quiet
    rw [← sound.order, ← same]
    exact List.mem_append_left _ (List.mem_map.mpr ⟨s, member, rfl⟩)
  obtain ⟨_, answer, turn, made⟩ :=
    crafted.answered notPing server (e.mem.coms server.tcpPortNum) full size dnsQuery
  cases answered.symm.trans turn
  refine ⟨sound.buffer, sound.servers, sound.order, sound.genuine, sound.sending, sound.queries, ?_, sound.scored,
    sound.rows⟩
  intro p there
  rcases List.mem_append.mp there with old | new
  · exact sound.replies p old
  · have toScoreboard : server.scoreboardPort = clientPort := fleet.scoreboard server genuine
    simp only [List.filter_cons, toScoreboard, decide_true, if_true, List.filter_nil, List.map_cons, List.map_nil,
      List.mem_singleton] at new
    subst new
    exact ⟨s, member, holds s member mine.symm, made⟩

/-- The answer finds its request among those that wait, or changes no row. -/
theorem sound_score (sound : BenchSound all tables ids e) (distinct : ids.Nodup) (sent : (message, coms) ∈ e.replies)
    (scored : dnsResponseHandler e.handler (some message) elapsedTime = some handler) :
    BenchSound all tables ids { e with
      handler
      scored := if handler.dnsMessage.header.id ∈ e.waiting then (handler.dnsMessage.header.id, coms) :: e.scored
        else e.scored } := by
  obtain ⟨s₀, member₀, holds, crafted⟩ := sound.replies _ sent
  obtain ⟨handler₁, turn, full, named, board⟩ := crafted.scored e.handler sound.buffer elapsedTime
  cases scored.symm.trans turn
  rw [named]
  let valid : UInt8 := if (translateIp coms s₀.domain).isSome then 1 else 0
  let waiting := e.handler.scoreboard.queue.map (Results.answer s₀.id valid elapsedTime)
  have rows₁ : handler.scoreboard.rows = e.handler.scoreboard.written ++ waiting := by
    rw [board]
    exact writeAnswered_rows _ _
  obtain ⟨done, left, parts, wrote, waits⟩ := forall₂_append_split sound.rows
  have entered : ∀ s ∈ e.entered, s ∈ e.sent := fun s member => List.mem_append_left _ member
  have behind : ∀ s ∈ left, s ∈ e.entered := fun s member => parts ▸ List.mem_append_right _ member
  by_cases known : s₀.id ∈ e.waiting
  · rw [if_pos known]
    have there : s₀ ∈ left := by
      obtain ⟨r, queued, same⟩ := List.mem_map.mp known
      obtain ⟨s, member, row⟩ := exists_of_forall₂ waits queued
      cases sound.told distinct (entered s (behind s member)) member₀ (row.named.symm.trans same)
      exact member
    refine ⟨full, sound.servers, sound.order, sound.genuine, sound.sending, sound.queries, sound.replies, ?_, ?_⟩
    · intro p member
      rcases List.mem_cons.mp member with rfl | old
      · exact ⟨s₀, behind s₀ there, rfl, holds⟩
      · exact sound.scored p old
    · change List.Forall₂ _ handler.scoreboard.rows e.entered
      rw [rows₁, parts]
      refine List.rel_append (forall₂_imp_mem wrote fun r _ s member row => rowOf_kept row ?_ coms) ?_
      · -- A request that waits is not one whose row has been written.
        have nodup : (e.sent.map (·.id)).Nodup := by
          rw [← sound.order] at distinct
          exact distinct.of_append_left
        rw [Bench.sent, parts, List.map_append, List.map_append] at nodup
        intro same
        exact List.disjoint_of_nodup_append nodup.of_append_left (List.mem_map.mpr ⟨s, member, same⟩)
          (List.mem_map.mpr ⟨s₀, there, rfl⟩)
      · rw [List.forall₂_map_left_iff]
        refine forall₂_imp_mem waits fun r _ s member row => rowOf_answer row (fun same => ?_) coms elapsedTime
        exact sound.told distinct (entered s (behind s member)) member₀ same
  · rw [if_neg known]
    have same : waiting = e.handler.scoreboard.queue := by
      have none : ∀ r ∈ e.handler.scoreboard.queue, r.answer s₀.id valid elapsedTime = r :=
        fun r queued => answer_of_ne fun same => known (List.mem_map.mpr ⟨r, queued, same⟩)
      exact (List.map_congr_left none).trans (List.map_id _)
    refine ⟨full, sound.servers, sound.order, sound.genuine, sound.sending, sound.queries, sound.replies, sound.scored,
      ?_⟩
    change List.Forall₂ _ handler.scoreboard.rows e.entered
    rw [rows₁, same]
    exact sound.rows

theorem sound_step (sound : BenchSound all tables ids e) (fleet : Fleet all) (distinct : ids.Nodup)
    (quiet : pingId ∉ ids) (step : BenchStep all changes domains domainCnt e e₁)
    (covers : ∀ s ∈ e.sent, tables s (e.mem.coms s.server.tcpPortNum)) : BenchSound all tables ids e₁ := by
  cases step with
  | send script idle ran picked next =>
    obtain ⟨domain, server, picked₁, requested⟩ := sendSingleTest_requests ran
    cases picked.symm.trans picked₁
    cases next.symm.trans requested.next
    exact sound_send sound script idle requested
  | enter sending => exact sound_enter sound distinct sending
  | change script other =>
    refine ⟨sound.buffer, sound.servers, ?_, sound.genuine, sound.sending, sound.queries, sound.replies, sound.scored,
      sound.rows⟩
    rw [← sound.order, script, sentIds, sentIds, List.filterMap_cons_none other]
    rfl
  | reroute listed =>
    exact ⟨sound.buffer, listed, sound.order, sound.genuine, sound.sending, sound.queries, sound.replies,
      sound.scored, sound.rows⟩
  | update =>
    exact ⟨sound.buffer, sound.servers, sound.order, sound.genuine, sound.sending, sound.queries, sound.replies,
      sound.scored, sound.rows⟩
  | answer sent genuine here full size answered =>
    exact sound_answer sound fleet quiet sent genuine here (fun s member mine => mine ▸ covers s member) full size answered
  | score sent scored => exact sound_score sound distinct sent scored

/-- The ids of a test are apart and none of them is a ping's, so that the invariant holds all along, with each answer
made from a table that its server had. -/
theorem bench_sound (fleet : Fleet all) (sound : BenchSound all tables (sentIds (runTest arguments)) e)
    (run : ReflTransGen (BenchStep all changes domains domainCnt) e e₁) :
    BenchSound all (fun s coms => tables s coms ∨ HadTable (BenchStep all changes domains domainCnt) e e₁ s coms)
      (sentIds (runTest arguments)) e₁ := by
  obtain ⟨distinct, low⟩ := sentIds_distinct arguments
  have quiet : pingId ∉ sentIds (runTest arguments) := by
    intro member
    have small := low pingId member
    revert small
    decide
  induction run with
  | refl => exact sound.mono _ fun _ _ _ holds => .inl holds
  | @tail e₁ e₂ before step ih =>
    have here := ih.mono (fun s coms =>
      tables s coms ∨ HadTable (BenchStep all changes domains domainCnt) e e₂ s coms) ?_
    · exact sound_step here fleet distinct quiet step fun s member => .inr ⟨e₁, before, .single step, member, rfl⟩
    · rintro s _ coms (old | ⟨e', since, still, there, had⟩)
      · exact .inl old
      · exact .inr ⟨e', since, still.tail step, there, had⟩

/-- What is kept by the changes holds of the tables at every moment. -/
theorem coms_run {P : (UInt16 → Coms) → Prop} (run : ReflTransGen (BenchStep all changes domains domainCnt) e e₁)
    (begins : P e.mem.coms) (keeps : ∀ m m₁, P m.coms → changes m m₁ → P m₁.coms) : P e₁.mem.coms := by
  induction run with
  | refl => exact begins
  | tail _ step ih =>
    cases step with
    | send script idle ran picked next =>
      obtain ⟨_, _, _, requested⟩ := sendSingleTest_requests ran
      obtain ⟨_, _, _, _, rfl⟩ := requested.turned
      exact ih
    | @update m _ changed => exact keeps _ m ih changed
    | _ => exact ih

/-- The requests are entered in the order of their ids, to the last one of the test. -/
theorem BenchSound.entered_ids (sound : BenchSound all tables (sentIds (runTest arguments)) e) :
    e.enteredIds = (List.range e.entered.length).map UInt16.ofNat ∧
      (e.script = [] → e.sending = none → e.entered.length = testCount arguments) := by
  have count : (sentIds (runTest arguments)).length = testCount arguments := by
    rw [sentIds_runTest, List.length_map, List.length_range]
  have order := sound.order
  rw [Bench.sent, List.map_append, List.append_assoc] at order
  constructor
  · have begins : e.enteredIds = (sentIds (runTest arguments)).take e.entered.length := by
      rw [← order, List.take_left' (List.length_map _)]
      rfl
    have within := congrArg List.length order
    rw [List.length_append, List.length_map, count] at within
    rw [begins, sentIds_runTest, ← List.map_take, List.take_range, Nat.min_eq_left (by omega)]
  · intro script sending
    rw [script, sending] at order
    have whole := congrArg List.length order
    rw [List.length_append, List.length_map, count] at whole
    exact whole

/-- However a test goes, when the scoreboard is destroyed the results file has a row for each request that was
entered, in the order of their ids, which count up from 0 to the last one of the test; the row names the server
that the request went to, and says what its latest scored answer said of the name, which was made from the table that
this server had at the time. -/
theorem test_results (fleet : Fleet all) (start : BenchStart all arguments e)
    (run : ReflTransGen (BenchStep all changes domains domainCnt) e e₁) :
    List.Forall₂ (RowOf e₁.scored) (destroyScoreboard e₁.handler.scoreboard).written e₁.entered ∧
      (∀ p ∈ e₁.scored, ∃ s ∈ e₁.entered, s.id = p.1 ∧
        HadTable (BenchStep all changes domains domainCnt) e e₁ s p.2) ∧
      e₁.enteredIds = (List.range e₁.entered.length).map UInt16.ofNat ∧
      (e₁.script = [] → e₁.sending = none → e₁.entered.length = testCount arguments) := by
  have sound := bench_sound fleet (start.sound fun _ _ => False) run
  refine ⟨sound.rows, fun p member => ?_, sound.entered_ids⟩
  obtain ⟨s, there, named, had⟩ := sound.scored p member
  exact ⟨s, there, named, had.resolve_left False.elim⟩

end

/-- The only server. -/
def loneServer : Server := createDnsServer [] 0 clientPort dnsPortNum

def disableTest : Arguments := ⟨some [120], 1, true, false, false, false⟩

/-- The beginning of a test of one server, with these tables. -/
def loneBench (coms : UInt16 → Coms) : Bench Nat where
  script := runTest disableTest
  sending := none
  entered := []
  mem := { startMem .roundRobin with router := ⟨.roundRobin, [loneServer], 1, 0⟩, coms }
  queries := []
  replies := []
  handler := ⟨rootQuestion, List.replicate 64 0, createScoreboard⟩
  scored := []

theorem loneBench_start (coms : UInt16 → Coms) : BenchStart (· = loneServer) disableTest (loneBench coms) :=
  ⟨rfl, rfl, rfl, fun _ => List.mem_singleton.mp, rfl, rfl, rfl, rfl, rfl⟩

theorem loneServer_fleet : Fleet (· = loneServer) := by
  constructor
  · rintro _ _ rfl rfl _
    rfl
  · rintro _ rfl
    rfl

/-- The requests of the first block of a test that pauses a server. -/
theorem disable_requests {arguments : Arguments} (disable : arguments.randomlyDisable = true) (few : k ≤ 0xFF) :
    ∃ rest, runTest arguments = (List.range k).map (fun j => .sendSingleTest (UInt16.ofNat j)) ++ rest := by
  obtain ⟨l, whole⟩ := Nat.exists_eq_add_of_le few
  rw [runTest, if_pos disable, testRounds, dif_pos (by decide), whole, List.range_add, List.map_append,
    List.append_assoc, List.append_assoc]
  exact ⟨_, rfl⟩

/-- A server that has the name of the first request. -/
def nameComs : Coms := { emptyComs 0 with ipHash := (∅ : Hash).insert [110] [49] }

def loneQuery (id : UInt16) : Bytes := (craftHeader true id none).toBytes ++ [110, 0, 0, 1, 0, 1]

/-- A request is sent to the server whose turn it is, and entered. -/
theorem request_run (all : Server → Prop) (changes : Mem → Mem → Prop) (e : Bench Nat) (server : Server) {id : UInt16}
    (script : e.script = .sendSingleTest id :: rest) (idle : e.sending = none)
    (mode : e.mem.router.mode = .roundRobin) (online : e.mem.router.serverCnt ≠ 0)
    (found : e.mem.router.servers[(e.mem.router.currServer % e.mem.router.serverCnt).toNat]? = some server) :
    ReflTransGen (fun e e₁ => BenchStep all changes [[110]] 1 e e₁ ∧ LeavesRouter e e₁) e { e with
      script := rest
      sending := none
      entered := e.entered ++ [⟨id, [110], server⟩]
      mem := { e.mem with router := { e.mem.router with
        currServer := UInt8.ofNat ((1 + e.mem.router.currServer.toNat) % e.mem.router.serverCnt.toNat) } }
      queries := e.queries ++ [⟨server.portNum, loneQuery id⟩]
      handler := { e.handler with
        scoreboard := (recieveGeneratedReq e.handler.scoreboard id server.id.toUInt8 0 5).2 } } := by
  have choice := show chooseServer e.mem.router.mode e.mem.router.currServer e.mem.router.serverCnt = _ by
    rw [mode, chooseServer, if_neg online]
  have next : e.mem.router.nextServer = some server := by
    simp only [Router.nextServer, choice, Option.bind_eq_bind, Option.bind_some, found]
  have ran := sendSingleTest_runs silentWorld [[110]] 1 0 id rfl (by decide) rfl rfl choice online found e.queries
  have sends : BenchStep all changes [[110]] 1 e { e with
      script := rest
      sending := some (⟨id, [110], server⟩, server.id.toUInt8, 5)
      mem := { e.mem with router := { e.mem.router with
        currServer := UInt8.ofNat ((1 + e.mem.router.currServer.toNat) % e.mem.router.serverCnt.toNat) } }
      queries := e.queries ++ [⟨server.portNum, loneQuery id⟩] } := .send script idle ran rfl next
  exact .head ⟨sends, .inr ⟨id, rest, script, rfl⟩⟩ (.single ⟨.enter rfl, .inl rfl⟩)

/-- The first request of a test of one server is answered and scored. -/
theorem loneBench_scored (all : Server → Prop) (changes : Mem → Mem → Prop) (known : all loneServer)
    (coms : UInt16 → Coms) :
    ∃ e₁ : Bench Nat, ReflTransGen (BenchStep all changes [[110]] 1) (loneBench coms) e₁ ∧
      e₁.entered = [⟨0, [110], loneServer⟩] ∧ e₁.scored = [(0, coms loneServer.tcpPortNum)] ∧ e₁.mem.coms = coms := by
  obtain ⟨rest, script⟩ := disable_requests (show disableTest.randomlyDisable = true from rfl) (k := 1) (by decide)
  have requested := request_run all changes (loneBench coms) loneServer script rfl rfl (show (1 : UInt8) ≠ 0 by decide) rfl
  have run := ReflTransGen.mono (fun _ _ step => step.1) _ _ requested
  let zeros : Bytes := List.replicate 64 0
  have size : zeros.length = maxDnsBytes := rfl
  have crafted : Crafted true 0 [110] none (loneQuery 0) := ⟨zeros, rfl, rfl⟩
  let here := coms loneServer.tcpPortNum
  obtain ⟨_, answer, answered, crafted₁⟩ := crafted.answered (by decide) loneServer here size size rootQuestion
  have passed : ([(⟨loneServer.scoreboardPort, answer⟩ : Packet)].filter (·.portNum = clientPort)).map
      (fun p => (p.message, here)) = [(answer, here)] := by
    simp [loneServer, createDnsServer]
  have replied := run.tail (.answer (.head _) known rfl size size answered)
  obtain ⟨handler, scored, _, named, _⟩ := crafted₁.scored
    { dnsMessage := rootQuestion, buffer := zeros, scoreboard := ⟨[⟨5, 0, 0, 0, 0, 0, 0⟩], []⟩ } rfl (9 : Nat)
  have arrived : (answer, here) ∈ [] ++ ([(⟨loneServer.scoreboardPort, answer⟩ : Packet)].filter
      (·.portNum = clientPort)).map fun p => (p.message, here) := by
    rw [passed]
    exact List.mem_singleton_self _
  refine ⟨_, replied.tail (.score arrived scored), rfl, ?_, rfl⟩
  rw [named]
  rfl

theorem test_results_first : ∃ e₁ : Bench Nat, e₁.scored = [(0, nameComs)] ∧
    List.Forall₂ (RowOf e₁.scored) (destroyScoreboard e₁.handler.scoreboard).written e₁.entered ∧
    (∀ p ∈ e₁.scored, ∃ s ∈ e₁.entered, s.id = p.1 ∧
      HadTable (BenchStep (· = loneServer) (fun _ _ => True) [[110]] 1) (loneBench fun _ => emptyComs 0) e₁ s p.2) ∧
    e₁.enteredIds = (List.range e₁.entered.length).map UInt16.ofNat ∧
    (e₁.script = [] → e₁.sending = none → e₁.entered.length = testCount disableTest) := by
  let later : UInt16 → Coms := fun _ => nameComs
  have update : BenchStep (· = loneServer) (fun _ _ => True) [[110]] 1 (loneBench fun _ => emptyComs 0)
      (loneBench later) := .update (m := { startMem .roundRobin with coms := later }) trivial
  obtain ⟨e₁, run, _, scored, _⟩ := loneBench_scored (· = loneServer) (fun _ _ => True) rfl later
  exact ⟨e₁, scored, test_results loneServer_fleet (loneBench_start _) (.head update run)⟩

end DnsServer
