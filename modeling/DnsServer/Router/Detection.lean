import DnsServer.Router.Watching

/-! What the rounds find out: a server that is paused leaves the rotation, and one that is heard in each round
stays. -/
namespace DnsServer
open Process Program Relation Memory

def Watch.removed (e : Watch) (router : Router) : Watch :=
  { e with health := { e.health with mem := { e.health.mem with router } } }

/-- What holds while the ids of a list are yet to be removed. -/
structure Removing (all : Server → Prop) (watched : Server) (Good : Watch → Prop) (Holds : List UInt8 → Watch → Prop) :
    Prop where
  stable : ∀ offline, Stable all watched (Holds offline)
  good : ∀ offline e, Holds offline e → Good e
  erased : ∀ dnsId offline e router, Holds (dnsId :: offline) e → Genuine all (e.removed router).health →
    router.rotation = e.rotation.eraseP (·.id = dnsId.toUInt16) → Holds offline (e.removed router)
  kept : ∀ offline e router, Holds offline e → Genuine all (e.removed router).health →
    router.rotation = e.rotation → Holds offline (e.removed router)

section
variable {all : Server → Prop} {watched : Server} {allowed : Watch → platform.Call → Prop} {Good : Watch → Prop}
  {Holds : List UInt8 → Watch → Prop} {e e₁ e₂ : Watch}

theorem genuine_removed {router : Router} (genuine : Genuine all e.health) (covered : router.Covered)
    (fewer : ∀ server ∈ router.rotation, server ∈ e.rotation) : Genuine all (e.removed router).health where
  covered := covered
  servers server member := genuine.servers server (fewer server member)
  pings := genuine.pings
  pongs := genuine.pongs

theorem removing_erased {router : Router} (removing : Removing all watched Good Holds)
    (holds : Holds (dnsId :: offline) e) (shifted : e.health.mem.router.shiftOut dnsId = some (deleted, router)) :
    Holds offline (e.removed router) := by
  have genuine := (removing.stable _).genuine e holds
  obtain ⟨_, _, shifted₁, _, _, erased, covered, _⟩ := shiftOut_spec genuine.covered dnsId
  cases shifted.symm.trans shifted₁
  refine removing.erased dnsId offline e router holds (genuine_removed genuine covered ?_) erased
  intro server member
  rw [erased] at member
  exact List.mem_of_mem_eraseP member

theorem removing_shrunk (removing : Removing all watched Good Holds) (holds : Holds offline e) :
    Holds offline (e.removed e.health.mem.router.shrinkServers) := by
  have genuine := (removing.stable _).genuine e holds
  obtain ⟨sized, rotation⟩ := shrinkServers_spec genuine.covered
  refine removing.kept offline e _ holds (genuine_removed genuine sized.covered ?_) rotation
  intro server member
  rw [rotation] at member
  exact member

theorem removing_later (stable : Stable all watched Good) (removing : Removing all watched Good Holds)
    (holds : Holds offline e) (good : Good e₁) (later : Later watched e e₁) : Holds offline e₁ :=
  (removing.stable offline).later e e₁ holds (stable.genuine e₁ good) (stable.absent e₁ good) later

theorem removing_quiet {op : platform.Call} {k : op.Reply → Proc α} {post : α → Watch → Prop} (online : all watched)
    (stable : Stable all watched Good) (removing : Removing all watched Good Holds) (holds : Holds offline e)
    (spares : RemovesNone op) (other : op ≠ .act .recvfrom)
    (next : ∀ r e₁, Holds offline e₁ → Minds all watched allowed Good (k r) post e₁) :
    Minds all watched allowed Good (@Program.call platform.interface _ op k) post e :=
  minds_quiet online stable (removing.good _ e holds) spares other fun r e₁ good quiet _ =>
    next r e₁ (removing_later stable removing holds good quiet.toLater)

theorem removeServer_minds (online : all watched) (stable : Stable all watched Good)
    (removing : Removing all watched Good Holds) (holds : Holds (dnsId :: offline) e) :
    Minds all watched allowed Good (removeServer dnsId) (fun _ e₁ => Holds offline e₁) e := by
  simp only [removeServer, lock, unlock, act, request, bind_eq, pure_eq, call_bind, ret_bind]
  refine removing_quiet online stable removing holds trivial (by rintro ⟨⟩) fun _ e₁ holds₁ => ?_
  refine removing_quiet online stable removing holds₁ trivial (by rintro ⟨⟩) fun _ e₂ holds₂ => ?_
  refine obeys_upholding (removing.good _ e₂ holds₂) fun deleted e₃ e₄ answered drifts => ?_
  obtain ⟨_, health, ⟨_, world, answered⟩, rfl⟩ := answered
  simp only [Health.reply, Mem.perform, Option.map_map, Option.map_eq_some_iff] at answered
  obtain ⟨⟨deleted, router⟩, shifted, done⟩ := answered
  cases done
  rw [takes_other (by rintro ⟨⟩), Bool.or_false] at drifts
  have holds₃ := removing_erased removing holds₂ shifted
  obtain ⟨holds₄, _⟩ := watchDrifts_quiet online (removing.stable _) holds₃ drifts
  split
  · exact holds₄
  refine obeys_upholding (removing.good _ e₄ holds₄) fun _ e₅ e₆ answered drifts => ?_
  obtain ⟨_, health, ⟨_, world, answered⟩, rfl⟩ := answered
  cases answered
  rw [takes_other (by rintro ⟨⟩), Bool.or_false] at drifts
  have holds₅ := removing_shrunk removing holds₄
  obtain ⟨holds₆, _⟩ := watchDrifts_quiet online (removing.stable _) holds₅ drifts
  refine removing_quiet online stable removing holds₆ trivial (by rintro ⟨⟩) fun _ e₇ holds₇ => ?_
  exact removing_quiet online stable removing holds₇ trivial (by rintro ⟨⟩) fun _ e₈ holds₈ => holds₈

theorem removeServers_minds (online : all watched) (stable : Stable all watched Good)
    (removing : Removing all watched Good Holds) (holds : Holds offline e) :
    Minds all watched allowed Good (removeServers offline) (fun _ e₁ => Holds [] e₁) e := by
  induction offline generalizing e with
  | nil => exact holds
  | cons dnsId offline ih =>
    apply (removeServer_minds online stable removing holds).mono _ |>.bind
    exact fun _ e₁ holds₁ => ih holds₁

/-- The list of a round in which nobody has joined, when no pong waits any more. -/
structure Read (watched : Server) (allowed : Watch → platform.Call → Prop) (e e₁ : Watch) (offline : List UInt8) :
    Prop where
  whole : e₁.rotation = e.rotation
  later : Later watched e e₁
  crossed : Crossed watched e e₁ (e.rotation.map (·.id.toUInt8)) offline
  last : ∃ e₂, allowed e₂ (.act .recvfrom) ∧ e₂.health.socket = [] ∧ e₁.heard = e₂.heard

/-- A round that returns 0 has removed what its list was left with. -/
theorem queryResponseTime_minds (population : Population all) (online : all watched)
    (stable : Stable all watched Good) (removing : Removing all watched Good Holds) (good : Good e)
    (reads : ∀ e₁ offline, Good e₁ → Read watched allowed e e₁ offline → Holds offline e₁) :
    Minds all watched allowed Good queryResponseTime (fun code e₁ => Good e₁ ∧ (code = 0 → Holds [] e₁)) e := by
  simp only [queryResponseTime, act, request, bind_eq, pure_eq, call_bind, ret_bind]
  refine minds_quiet online stable good trivial (by rintro ⟨⟩) fun router e₁ good₁ quiet₁ tells => ?_
  cases tells
  refine .bind ((sendPings_minds online stable good₁).mono ?_)
  rintro _ e₂ ⟨good₂, quiet₂⟩
  refine minds_quiet online stable good₂ trivial (by rintro ⟨⟩) fun router e₃ good₃ quiet₃ _ => ?_
  refine minds_quiet online stable good₃ trivial (by rintro ⟨⟩) fun buffer e₄ good₄ quiet₄ _ => ?_
  refine minds_quiet online stable good₄ trivial (by rintro ⟨⟩) fun router e₅ good₅ quiet₅ tells => ?_
  cases tells
  refine .bind ((listServers_minds online stable good₅ buffer.val).mono ?_)
  rintro offline e₆ ⟨good₆, quiet₆, lists⟩
  refine .bind ((crossOff_minds population online stable good₆ offline e₄.health.mem.router.serverCnt).mono ?_)
  rintro ⟨rest, left⟩ e₇ ⟨⟨good₇, later₇⟩, crossed, last⟩
  refine minds_quiet online stable good₇ trivial (by rintro ⟨⟩) fun router e₈ good₈ quiet₈ tells => ?_
  cases tells
  split
  · exact ⟨good₈, by rintro ⟨⟩⟩
  next unchanged =>
  have quiet₅' := (((quiet₁.trans quiet₂).trans quiet₃).trans quiet₄).trans quiet₅
  have quiet := quiet₅'.trans quiet₆
  have whole : e₇.rotation = e.rotation := by
    refine ((quiet.onward.trans later₇.onward).rotation.eq_of_length ?_).symm
    rw [Health.rotation, (stable.genuine e good).covered.length_rotation, Health.rotation,
      (stable.genuine e₇ good₇).covered.length_rotation, Decidable.of_not_not unchanged]
  -- Nobody has joined, as in `queryResponseTime_judges`.
  have same₄ : e₄.rotation = e.rotation :=
    (((quiet₁.trans quiet₂).trans quiet₃).trans quiet₄).onward.same
      (quiet₅.onward.trans (quiet₆.onward.trans later₇.onward)) whole
  have same₅ : e₅.rotation = e.rotation := quiet₅'.onward.same (quiet₆.onward.trans later₇.onward) whole
  have same₆ : e₆.rotation = e.rotation := quiet.onward.same later₇.onward whole
  have count : e₄.health.mem.router.serverCnt.toNat = e₅.rotation.length := by
    rw [same₅, ← same₄, Watch.rotation, Health.rotation, (stable.genuine e₄ good₄).covered.length_rotation]
  rw [count, lists (same₆.trans same₅.symm), same₅] at crossed
  have read : Read watched allowed e e₇ (rest.take left.toNat) := by
    refine ⟨whole, quiet.toLater.trans later₇, ⟨fun paused still => ?_, crossed.less, fun unheard => ?_⟩, last⟩
    · obtain ⟨paused₆, fewer⟩ := quiet.fewer paused
      exact crossed.kept paused₆ (fewer.trans still)
    · exact crossed.gone (quiet.heard.trans unheard)
  have holds := removing_later stable removing (reads e₇ _ good₇ read) good₈ quiet₈.toLater
  split
  · exact (minds_impossible good₈).bind
  refine .bind ((removeServers_minds online stable removing holds).mono ?_)
  exact fun _ e₉ holds₉ => ⟨removing.good _ e₉ holds₉, fun _ => holds₉⟩

/-! A server whose pongs are read in time. -/

/-- The round finds no further pong only after it has taken one of the watched server. -/
def Watch.prompt (e : Watch) : platform.Call → Bool
  | .act .recvfrom => e.heard || !e.health.socket.isEmpty
  | _ => true

def Watch.Prompt (e : Watch) (call : platform.Call) : Prop := e.prompt call = true

/-- The watched server is in the rotation once. -/
structure Online (all : Server → Prop) (watched : Server) (e : Watch) : Prop where
  genuine : Genuine all e.health
  absent : watched ∉ e.health.joined
  once : e.rotation.count watched = 1

theorem online_stable : Stable all watched (Online all watched) where
  genuine _ good := good.genuine
  absent _ good := good.absent
  later e e₁ good genuine absent later := by
    refine ⟨genuine, absent, ?_⟩
    rw [Watch.rotation, (later.onward.joined watched absent).2]
    exact good.once

theorem count_bytes (population : Population all) (online : all watched) {servers : List Server}
    (known : ∀ server ∈ servers, all server) :
    (servers.map (·.id.toUInt8)).count watched.id.toUInt8 = servers.count watched := by
  rw [List.count_eq_countP, List.countP_map, List.count_eq_countP]
  refine List.countP_congr fun server member => ?_
  simp only [Function.comp_apply, beq_iff_eq]
  exact ⟨population.byte_distinct (known server member) online, fun same => same ▸ rfl⟩

theorem online_removing : Removing all watched (Online all watched)
      (fun offline e => Online all watched e ∧ offline.count watched.id.toUInt8 = 0) where
  stable offline :=
    { genuine := fun _ holds => holds.1.genuine
      absent := fun _ holds => holds.1.absent
      later := fun e e₁ holds genuine absent later =>
        ⟨online_stable.later e e₁ holds.1 genuine absent later, holds.2⟩ }
  good _ _ holds := holds.1
  erased dnsId offline e router holds genuine erased := by
    obtain ⟨good, spared⟩ := holds
    obtain ⟨other, spared⟩ : watched.id.toUInt8 ≠ dnsId ∧ offline.count watched.id.toUInt8 = 0 := by
      rw [List.count_eq_zero, List.mem_cons, not_or] at spared
      exact ⟨spared.1, List.count_eq_zero.mpr spared.2⟩
    refine ⟨⟨genuine, good.absent, ?_⟩, spared⟩
    change router.rotation.count watched = 1
    have stays : ¬ decide (watched.id = dnsId.toUInt16) = true := by
      rw [decide_eq_true_eq]
      exact fun same => other (by rw [same]; exact UInt8.toUInt8_toUInt16 dnsId)
    have one := good.once
    have member : watched ∈ e.rotation := List.count_pos_iff.mp (by omega)
    have kept : watched ∈ e.rotation.eraseP (·.id = dnsId.toUInt16) :=
      (List.mem_eraseP_of_neg (p := (·.id = dnsId.toUInt16)) stays).mpr member
    have some_ := List.count_pos_iff.mpr kept
    have few := (List.eraseP_sublist (p := (·.id = dnsId.toUInt16)) (l := e.rotation)).count_le watched
    rw [erased]
    omega
  kept offline e router holds genuine same :=
    ⟨⟨genuine, holds.1.absent, (congrArg (List.count watched) same).trans holds.1.once⟩, holds.2⟩

theorem genuine_start {X : Rounds} (start : X.Start all) : Genuine all X.2 where
  covered := start.sized.covered
  servers := start.servers
  pings := by simp [start.pings]
  pongs := by simp [start.pongs, start.socket]

theorem genuine_begin {h : Health} (genuine : Genuine all h) : Genuine all h.begin :=
  ⟨genuine.covered, genuine.servers, genuine.pings, genuine.pongs⟩

/-- A round that has not heard the server yet. -/
theorem queryResponseTime_online (population : Population all) (online : all watched) (good : Online all watched e)
    (unheard : e.heard = false) :
    Upheld (Watch.Replies watched Watch.Prompt) (WatchDrift all watched) (Online all watched) queryResponseTime
      (fun _ _ => True) e := by
  intro e₁ drifts
  obtain ⟨good₁, quiet⟩ := watchDrifts_quiet online online_stable good drifts
  apply (queryResponseTime_minds population online online_stable online_removing good₁ _).mono
  · exact fun _ _ ended => ⟨ended.1, trivial⟩
  intro e₂ offline good₂ read
  obtain ⟨e₃, prompt, empty, same⟩ := read.last
  have heard : e₃.heard = true := by
    simpa [Watch.Prompt, Watch.prompt, empty] using prompt
  have gone := read.crossed.gone (quiet.heard.trans unheard) (same.trans heard)
  have listed : (e₁.rotation.map (·.id.toUInt8)).count watched.id.toUInt8 = 1 :=
    (count_bytes population online good₁.genuine.servers).trans good₁.once
  rw [listed] at gone
  exact ⟨good₂, Nat.le_zero.mp gone⟩

/-- A server that is heard in each round stays in the rotation, whoever else leaves it or joins. -/
theorem heard_server_stays (population : Population all) (online : all watched) (start : X.Start all)
    (once : X.env.rotation.count watched = 1)
    (run : ReflTransGen (Watched.Step all watched Watch.Prompt) X Y) : Y.env.rotation.count watched = 1 := by
  have upheld : Upheld (Watch.Replies watched Watch.Prompt) (WatchDrift all watched) (Online all watched) Y.round
      (fun _ _ => True) Y.env := by
    induction run with
    | refl =>
      have absent : watched ∉ X.env.health.joined := by
        rw [show X.env.health.joined = [] from start.rounds.joined]
        exact List.not_mem_nil
      rw [show X.round = queryResponseTime from start.rounds.program]
      exact queryResponseTime_online population online ⟨genuine_start start.rounds, absent, once⟩ start.heard
    | tail _ step ih =>
      cases step with
      | within moved => exact ih.step moved
      | next returned =>
        have good := ih.now
        exact queryResponseTime_online population online ⟨genuine_begin good.genuine, List.not_mem_nil, good.once⟩ rfl
  exact upheld.now.once

end

/-! Runs of a round of the only server, which is watched. -/

def watching : Handler platform.interface Watch := fun e request =>
  (e.health.reply silentWorld request).map fun answer =>
    (answer.1, { e with health := answer.2, heard := e.heard || e.takes serverA request })

theorem watching_replies {e e₁ : Watch} {op : platform.Call} {r : op.Reply} (done : watching e op = some (r, e₁)) :
    e.Replies serverA (fun _ _ => True) op r e₁ := by
  simp only [watching, Option.map_eq_some_iff] at done
  obtain ⟨⟨r, health⟩, answered, same⟩ := done
  cases same
  exact ⟨trivial, health, ⟨trivial, silentWorld, answered⟩, rfl⟩

def promptly : Handler platform.interface Watch := fun e request =>
  if e.prompt request then watching e request else none

theorem promptly_replies {e e₁ : Watch} {op : platform.Call} {r : op.Reply} (done : promptly e op = some (r, e₁)) :
    e.Replies serverA Watch.Prompt op r e₁ := by
  simp only [promptly, Option.ite_none_right_eq_some] at done
  exact ⟨done.1, (watching_replies done.2).2⟩

/-- The rest of a round during which nothing happens beside it. -/
theorem watched_alone {all : Server → Prop} {h : Handler platform.interface Watch}
    {allowed : Watch → platform.Call → Prop} {p : Proc UInt8} {e e₁ : Watch}
    (replies : ∀ e op r e₁, h e op = some (r, e₁) → e.Replies serverA allowed op r e₁) (ran : Runs h p e code e₁) :
    ReflTransGen (Shared (Watch.Replies serverA allowed) (WatchDrift all serverA)) (p, e) (.ret code, e₁) := by
  have steps : ReflTransGen (Shared (Watch.Replies serverA allowed) (WatchDrift all serverA)) (p.bind .ret, e)
      (.ret code, e₁) := ran.shared replies .ret
  rwa [bind_ret] at steps

theorem watched_runs {all : Server → Prop} {allowed : Watch → platform.Call → Prop} {X Y : Proc UInt8 × Watch}
    (since : Bool) (ended : Nat)
    (run : ReflTransGen (Shared (Watch.Replies watched allowed) (WatchDrift all watched)) X Y) :
    ReflTransGen (Watched.Step all watched allowed) ⟨X.1, X.2, since, ended⟩ ⟨Y.1, Y.2, since, ended⟩ := by
  induction run with
  | refl => exact .refl
  | tail _ moved ih => exact ih.tail (.within moved)

/-- The server answers the ping of the round before the round reads. -/
theorem heard_server_stays_first : ∃ Y : Watched,
    ReflTransGen (Watched.Step (· = serverA) serverA Watch.Prompt)
      ⟨queryResponseTime, ⟨oneOnline, false, false, false⟩, false, 0⟩ Y ∧
    Y.round = .ret 0 ∧ Y.env.rotation.count serverA = 1 := by
  have start : Watched.Start (· = serverA) ⟨queryResponseTime, ⟨oneOnline, false, false, false⟩, false, 0⟩ :=
    ⟨oneOnline_start, rfl, rfl, rfl, rfl⟩
  have round : ReflTransGen (Shared (Watch.Replies serverA Watch.Prompt) (WatchDrift (· = serverA) serverA))
      (queryResponseTime, ⟨oneOnline, false, false, false⟩)
      (.ret 0, ⟨{ oneOnline with answers := [pongA 0] }, false, false, true⟩) := by
    refine .head (.call ⟨rfl, _, ⟨trivial, silentWorld, rfl⟩, rfl⟩) ?_
    refine .trans ((runs_of_run (n := 20) (show _ = some ((),
      (⟨{ oneOnline with pings := [pingA 0] }, false, false, false⟩ : Watch)) from rfl)).shared
      (fun _ _ _ _ => promptly_replies) _) ?_
    refine .head (.drift (.check rfl)) ?_
    refine .head (.drift (@WatchDrift.handle _ _ (pingA 0) (emptyComs 0) rootQuestion [] _ [⟨2055, [1]⟩] _
      (List.replicate 64 0) rfl (.head _) rfl rfl rfl)) ?_
    refine .head (.drift (.others (@Drift.deliver _ (pongA 0) _ (.head _)))) ?_
    exact watched_alone (fun _ _ _ _ => promptly_replies) (runs_of_run (n := 60) rfl)
  have moments := watched_runs false 0 round
  exact ⟨_, moments, rfl, heard_server_stays onlyA_population rfl start rfl moments⟩

end DnsServer
