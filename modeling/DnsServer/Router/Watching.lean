import DnsServer.Router.Rounds

/-! Health rounds while the thread of one server is watched: its pongs, and its place in the rotation. -/
namespace DnsServer
open Process Program Relation Memory

/-- `receiving` when the server's thread is past the check of `pause`, and `heard` when the round has taken a pong
of the server. -/
structure Watch where
  health : Health
  pause : Bool
  receiving : Bool
  heard : Bool

def Watch.rotation (e : Watch) : List Server := e.health.rotation

/-- The server's pongs that no round has taken yet. -/
def Health.unread (e : Health) (server : Server) : Nat := (e.pongs ++ e.socket).countP (·.server = server)

/-- The pongs that are still to come of a server that is paused. -/
def Watch.owed (e : Watch) (server : Server) : Nat := e.health.unread server + e.receiving.toNat

/-- What happens beside a round. The watched server does not join again. -/
inductive WatchDrift (all : Server → Prop) (watched : Server) : Watch → Watch → Prop where
  | others : Drift (fun server => all server ∧ server ≠ watched) e.health health →
      WatchDrift all watched e { e with health }
  | pause : WatchDrift all watched e { e with pause := true }
  /-- `if (dns_server->pause) continue;` -/
  | check : e.pause = false → WatchDrift all watched e { e with receiving := true }
  | handle {request : Bytes} : e.receiving = true → ping ∈ e.health.pings → watched.portNum = ping.portNum →
      request.length = maxDnsBytes →
      queryHandler watched coms request (some ping.message) dnsQuery buffer = some (request₁, packets) →
      WatchDrift all watched e { e with health := e.health.answered ping watched packets, receiving := false }
  /-- The datagram was no ping. -/
  | handleOther : e.receiving = true → WatchDrift all watched e { e with receiving := false }

/-- The request takes a pong of the server. -/
def Watch.takes (e : Watch) (watched : Server) : platform.Call → Bool
  | .act .recvfrom => e.health.socket.head?.any (·.server = watched)
  | _ => false

def Watch.Replies (watched : Server) (allowed : Watch → platform.Call → Prop) (e : Watch) (call : platform.Call)
    (r : call.Reply) (e₁ : Watch) : Prop :=
  allowed e call ∧ ∃ health, e.health.Replies (fun _ _ => True) call r health ∧
    e₁ = { e with health, heard := e.heard || e.takes watched call }

/-- `ended` counts the rounds that have begun since the server was paused and returned 0. -/
structure Watched where
  round : Proc UInt8
  env : Watch
  since : Bool
  ended : Nat

inductive Watched.Step (all : Server → Prop) (watched : Server) (allowed : Watch → platform.Call → Prop) :
    Watched → Watched → Prop where
  | within : Shared (Watch.Replies watched allowed) (WatchDrift all watched) (X.round, X.env) (p, e) →
      Step all watched allowed X { X with round := p, env := e }
  | next : X.round = .ret code → Step all watched allowed X
      ⟨queryResponseTime, { X.env with health := X.env.health.begin, heard := false }, X.env.pause,
        if X.since ∧ code = 0 then X.ended + 1 else X.ended⟩

structure Watched.Start (all : Server → Prop) (X : Watched) : Prop where
  rounds : Rounds.Start all (X.round, X.env.health)
  running : X.env.pause = false
  heard : X.env.heard = false
  since : X.since = false
  ended : X.ended = 0

section
variable {all : Server → Prop} {watched : Server} {allowed : Watch → platform.Call → Prop} {Good : Watch → Prop}
  {e e₁ e₂ : Watch}

/-- The second is as the first, or later, and the watched server has come to owe no more since it is paused. -/
structure Later (watched : Server) (e e₁ : Watch) : Prop where
  onward : Onward e.health e₁.health
  fewer : e.pause = true → e₁.pause = true ∧ e₁.owed watched ≤ e.owed watched

theorem Later.refl : Later watched e e := ⟨.refl, fun paused => ⟨paused, le_rfl⟩⟩

theorem Later.trans (first : Later watched e e₁) (second : Later watched e₁ e₂) : Later watched e e₂ where
  onward := first.onward.trans second.onward
  fewer paused := by
    obtain ⟨paused, less⟩ := first.fewer paused
    obtain ⟨paused, less₁⟩ := second.fewer paused
    exact ⟨paused, less₁.trans less⟩

/-- No pong of the watched server has been taken in between. -/
structure Quiet (watched : Server) (e e₁ : Watch) : Prop extends Later watched e e₁ where
  heard : e₁.heard = e.heard

theorem Quiet.refl : Quiet watched e e := ⟨.refl, rfl⟩

theorem Quiet.trans (first : Quiet watched e e₁) (second : Quiet watched e₁ e₂) : Quiet watched e e₂ :=
  ⟨first.toLater.trans second.toLater, second.heard.trans first.heard⟩

/-- What holds at a moment and at all later ones, until a server is removed. -/
structure Stable (all : Server → Prop) (watched : Server) (Good : Watch → Prop) : Prop where
  genuine : ∀ e, Good e → Genuine all e.health
  absent : ∀ e, Good e → watched ∉ e.health.joined
  later : ∀ e e₁, Good e → Genuine all e₁.health → watched ∉ e₁.health.joined → Later watched e e₁ → Good e₁

theorem drift_mono {some_ : Server → Prop} {h h₁ : Health} (more : ∀ server, some_ server → all server)
    (drift : Drift some_ h h₁) : Drift all h h₁ := by
  cases drift with
  | join known free added => exact .join (more _ known) free added
  | answer pinged known port full handled => exact .answer pinged (more _ known) port full handled
  | deliver sent => exact .deliver sent

/-- The others leave the pongs of the watched server to be taken. -/
theorem others_unread {h h₁ : Health} (drift : Drift (fun server => all server ∧ server ≠ watched) h h₁) :
    h₁.unread watched = h.unread watched ∧ (watched ∉ h.joined → watched ∉ h₁.joined) := by
  cases drift with
  | join known _ _ =>
    refine ⟨rfl, fun absent member => ?_⟩
    rcases List.mem_cons.mp member with rfl | old
    · exact known.2 rfl
    · exact absent old
  | @answer ping server _ _ _ _ _ packets _ pinged known _ _ _ =>
    refine ⟨?_, id⟩
    have none : ((packets.filter (·.portNum = routerPortNum)).map fun packet =>
        (⟨ping.round, server, packet.message⟩ : Pong)).countP (·.server = watched) = 0 := by
      rw [List.countP_eq_zero]
      simp only [List.mem_map]
      rintro _ ⟨_, _, rfl⟩
      simpa using known.2
    simp only [Health.unread, Health.answered, List.countP_append, none]
    omega
  | @deliver pong _ sent =>
    refine ⟨?_, id⟩
    have moved : h.pongs.countP (·.server = watched) =
        (h.pongs.erase pong).countP (·.server = watched) + [pong].countP (·.server = watched) := by
      rw [(List.perm_cons_erase sent).countP_eq, List.countP_cons, List.countP_singleton]
    simp only [Health.unread, List.countP_append, moved]
    omega

/-- A ping is answered by one pong. -/
theorem handle_unread {h : Health} {request : Bytes} (genuine : Genuine all h) (pinged : ping ∈ h.pings)
    (full : request.length = maxDnsBytes)
    (handled : queryHandler watched coms request (some ping.message) dnsQuery buffer = some (request₁, packets)) :
    (h.answered ping watched packets).unread watched ≤ h.unread watched + 1 := by
  obtain ⟨_, reply⟩ := ping_answered watched coms (genuine.pings ping pinged) full dnsQuery buffer
  cases reply.symm.trans handled
  have one : ([(⟨watched.routerPort, [watched.id.toUInt8]⟩ : Packet)].filter (·.portNum = routerPortNum)).length ≤ 1 :=
    List.length_filter_le _ _
  have few := List.countP_le_length (p := fun pong : Pong => decide (pong.server = watched))
    (l := ([(⟨watched.routerPort, [watched.id.toUInt8]⟩ : Packet)].filter (·.portNum = routerPortNum)).map
      fun packet => ⟨ping.round, watched, packet.message⟩)
  rw [List.length_map] at few
  simp only [Health.unread, Health.answered, List.countP_append] at few ⊢
  omega

theorem watchDrift_quiet (online : all watched) (stable : Stable all watched Good) (good : Good e)
    (drift : WatchDrift all watched e e₁) : Good e₁ ∧ Quiet watched e e₁ := by
  have genuine := stable.genuine e good
  have absent := stable.absent e good
  suffices all_ : Genuine all e₁.health ∧ watched ∉ e₁.health.joined ∧ Quiet watched e e₁ from
    ⟨stable.later e e₁ good all_.1 all_.2.1 all_.2.2.toLater, all_.2.2⟩
  cases drift with
  | others moved =>
    obtain ⟨genuine₁, onward⟩ := drift_onward genuine (drift_mono (fun _ known => known.1) moved)
    obtain ⟨same, joins⟩ := others_unread moved
    refine ⟨genuine₁, joins absent, ⟨onward, fun paused => ⟨paused, ?_⟩⟩, rfl⟩
    exact Nat.add_le_add_right same.le _
  | pause => exact ⟨genuine, absent, ⟨.refl, fun _ => ⟨rfl, le_rfl⟩⟩, rfl⟩
  | check running =>
    refine ⟨genuine, absent, ⟨.refl, fun paused => ?_⟩, rfl⟩
    rw [running] at paused
    cases paused
  | handle receiving pinged port full handled =>
    obtain ⟨genuine₁, onward⟩ := drift_onward genuine (.answer pinged online port full handled)
    refine ⟨genuine₁, absent, ⟨onward, fun paused => ⟨paused, ?_⟩⟩, rfl⟩
    have one := handle_unread genuine pinged full handled
    rw [Watch.owed, Watch.owed, receiving]
    exact one
  | handleOther receiving =>
    refine ⟨genuine, absent, ⟨.refl, fun paused => ⟨paused, ?_⟩⟩, rfl⟩
    exact Nat.add_le_add_left (Nat.zero_le _) _

theorem watchDrifts_quiet (online : all watched) (stable : Stable all watched Good) (good : Good e)
    (drifts : ReflTransGen (WatchDrift all watched) e e₁) : Good e₁ ∧ Quiet watched e e₁ := by
  induction drifts with
  | refl => exact ⟨good, .refl⟩
  | tail _ drift ih =>
    obtain ⟨good₁, quiet⟩ := watchDrift_quiet online stable ih.1 drift
    exact ⟨good₁, ih.2.trans quiet⟩

theorem reply_pongs {h h₁ : Health} {world : World} {op : platform.Call} {r : op.Reply} (other : op ≠ .act .recvfrom)
    (answered : h.reply world op = some (r, h₁)) :
    h₁.pongs = h.pongs ∧ h₁.socket = h.socket ∧ h₁.joined = h.joined := by
  cases op with
  | lock l =>
    simp only [Health.reply, Option.ite_none_left_eq_some] at answered
    obtain ⟨_, done⟩ := answered
    cases done
    exact ⟨rfl, rfl, rfl⟩
  | unlock l =>
    cases answered
    exact ⟨rfl, rfl, rfl⟩
  | act op =>
    cases op with
    | recvfrom => exact absurd rfl other
    | _ =>
      simp only [Health.reply, Option.map_eq_some_iff] at answered
      obtain ⟨_, _, done⟩ := answered
      cases done
      exact ⟨rfl, rfl, rfl⟩
  | _ => cases answered

theorem takes_other {op : platform.Call} (other : op ≠ .act .recvfrom) : e.takes watched op = false := by
  cases op with
  | act op =>
    cases op with
    | recvfrom => exact absurd rfl other
    | _ => rfl
  | _ => rfl

/-- A request that reads no pong and removes no server. -/
theorem replies_quiet {op : platform.Call} {r : op.Reply} (stable : Stable all watched Good) (good : Good e)
    (spares : RemovesNone op) (other : op ≠ .act .recvfrom) (answered : e.Replies watched allowed op r e₁) :
    (Good e₁ ∧ Quiet watched e e₁) ∧ Tells all e.health op r := by
  obtain ⟨_, health, ⟨_, world, answered⟩, rfl⟩ := answered
  obtain ⟨⟨genuine, onward⟩, tells⟩ :=
    removesNone_reply spares (stable.genuine e good) ⟨fun same => absurd same other, world, answered⟩
  obtain ⟨pongs, socket, joined⟩ := reply_pongs other answered
  rw [takes_other other, Bool.or_false]
  have later : Later watched e { e with health } := by
    refine ⟨onward, fun paused => ⟨paused, ?_⟩⟩
    simp only [Watch.owed, Health.unread, pongs, socket, le_refl]
  have absent : watched ∉ health.joined := joined ▸ stable.absent e good
  exact ⟨⟨stable.later e _ good genuine absent later, later, rfl⟩, tells⟩

/-- What a read takes. -/
inductive Reads (all : Server → Prop) (watched : Server) (e e₁ : Watch) : Option Bytes → Prop where
  | nothing : e.health.socket = [] → e₁.heard = e.heard → Reads all watched e e₁ none
  | pong {server : Server} : all server →
      (server = watched → e.pause = true → e₁.owed watched + 1 ≤ e.owed watched) →
      (e₁.heard = true → e.heard = true ∨ server = watched) → Reads all watched e e₁ (some [server.id.toUInt8])

theorem replies_reads {r : Option Bytes} (stable : Stable all watched Good) (good : Good e)
    (answered : e.Replies watched allowed (.act .recvfrom) r e₁) :
    allowed e (.act .recvfrom) ∧ (Good e₁ ∧ Later watched e e₁) ∧ Reads all watched e e₁ r := by
  obtain ⟨allows, health, ⟨_, world, answered⟩, rfl⟩ := answered
  have genuine := stable.genuine e good
  have absent := stable.absent e good
  refine ⟨allows, ?_⟩
  cases waiting : e.health.socket with
  | nil =>
    simp only [Health.reply, waiting] at answered
    cases answered
    have same : (e.heard || e.takes watched (.act .recvfrom)) = e.heard := by
      simp [Watch.takes, waiting]
    rw [same]
    exact ⟨⟨good, .refl⟩, .nothing waiting rfl⟩
  | cons pong rest =>
    simp only [Health.reply, waiting] at answered
    cases answered
    obtain ⟨_, online, message⟩ := genuine.pongs pong (.inr (waiting ▸ List.mem_cons_self))
    have taken : e.health.unread watched =
        Health.unread { e.health with socket := rest } watched + if pong.server = watched then 1 else 0 := by
      simp only [Health.unread, waiting, List.countP_append, List.countP_cons, decide_eq_true_eq]
      omega
    obtain ⟨genuine₁, onward⟩ : Genuine all { e.health with socket := rest } ∧
        Onward e.health { e.health with socket := rest } := by
      refine messages_onward genuine rfl rfl rfl rfl genuine.pings ?_
      rintro pong₁ (there | there)
      · exact .inl there
      · exact .inr (waiting ▸ List.mem_cons_of_mem _ there)
    have later : Later watched e
        { e with
          health := { e.health with socket := rest }
          heard := e.heard || e.takes watched (.act .recvfrom) } := by
      refine ⟨onward, fun paused => ⟨paused, ?_⟩⟩
      simp only [Watch.owed, taken]
      omega
    refine ⟨⟨stable.later e _ good genuine₁ absent later, later⟩, ?_⟩
    rw [message]
    refine .pong online (fun mine _ => ?_) fun heard => ?_
    · simp only [Watch.owed, taken, if_pos mine]
      omega
    · simpa [Watch.takes, waiting] using heard

/-! The parts of a round that remove no server. -/

/-- The post-condition of a part of a round, with what holds all along. -/
abbrev Minds (all : Server → Prop) (watched : Server) (allowed : Watch → platform.Call → Prop) (Good : Watch → Prop)
    (p : Proc α) (post : α → Watch → Prop) (e : Watch) : Prop :=
  p.Obeys (upholding (Watch.Replies watched allowed) (WatchDrift all watched) Good) post e

theorem minds_quiet {op : platform.Call} {k : op.Reply → Proc α} {post : α → Watch → Prop} (online : all watched)
    (stable : Stable all watched Good) (good : Good e) (spares : RemovesNone op) (other : op ≠ .act .recvfrom)
    (next : ∀ r e₁, Good e₁ → Quiet watched e e₁ → Tells all e.health op r →
      Minds all watched allowed Good (k r) post e₁) :
    Minds all watched allowed Good (@Program.call platform.interface _ op k) post e := by
  refine obeys_upholding good fun r e₁ e₂ answered drifts => ?_
  obtain ⟨⟨good₁, quiet₁⟩, tells⟩ := replies_quiet stable good spares other answered
  obtain ⟨good₂, quiet₂⟩ := watchDrifts_quiet online stable good₁ drifts
  exact next r e₂ good₂ (quiet₁.trans quiet₂) tells

theorem minds_impossible {post : α → Watch → Prop} (good : Good e) :
    Minds all watched allowed Good (fault : Proc α) post e :=
  obeys_upholding good fun r => r.elim

theorem sendPings_minds (online : all watched) (stable : Stable all watched Good) (good : Good e) :
    Minds all watched allowed Good sendPings (fun _ e₁ => Good e₁ ∧ Quiet watched e e₁) e := by
  refine obeys_upholding_loop (fun _ e₁ => Good e₁ ∧ Quiet watched e e₁) ⟨good, .refl⟩ ?_
  rintro i e₁ ⟨good, quiet⟩
  refine ⟨good, ?_⟩
  simp only [act, request, bind_eq, pure_eq, call_bind, ret_bind]
  refine minds_quiet online stable good trivial (by rintro ⟨⟩) fun router e₂ good quiet₂ _ => ?_
  split
  · exact ⟨good, quiet.trans quiet₂⟩
  refine minds_quiet online stable good trivial (by rintro ⟨⟩) fun buffer e₃ good quiet₃ _ => ?_
  split
  · exact minds_impossible good
  next crafted =>
  split
  · exact minds_impossible good
  refine minds_quiet online stable good ⟨buffer.val, _, _, buffer.property, crafted, rfl⟩ (by rintro ⟨⟩)
    fun _ e₄ good quiet₄ _ => ?_
  exact ⟨good, ((quiet.trans quiet₂).trans quiet₃).trans quiet₄⟩

/-- When nobody joins meanwhile, the list has the ids of the rotation. -/
theorem listServers_minds (online : all watched) (stable : Stable all watched Good) (good : Good e) (offline : Bytes) :
    Minds all watched allowed Good (listServers offline) (fun offline e₁ => Good e₁ ∧ Quiet watched e e₁ ∧
      (e₁.rotation = e.rotation → offline.take e.rotation.length = e.rotation.map (·.id.toUInt8))) e := by
  refine obeys_upholding_loop (fun listed e₁ => Good e₁ ∧ Quiet watched e e₁ ∧
    (e₁.rotation = e.rotation → listed.1.take listed.2 = (e.rotation.take listed.2).map (·.id.toUInt8)))
    ⟨good, .refl, by simp⟩ ?_
  rintro ⟨offline, i⟩ e₁ ⟨good, quiet, listed⟩
  refine ⟨good, ?_⟩
  have covered := (stable.genuine e₁ good).covered
  simp only [act, request, bind_eq, pure_eq, call_bind, ret_bind]
  refine minds_quiet online stable good trivial (by rintro ⟨⟩) fun router e₂ good₂ quiet₂ tells => ?_
  cases tells
  split
  · next all_ =>
    refine ⟨good₂, quiet.trans quiet₂, fun unchanged => ?_⟩
    have same : e₁.rotation = e.rotation := quiet.onward.same quiet₂.onward unchanged
    have few : e.rotation.length ≤ i := by
      rw [← same, Watch.rotation, Health.rotation, covered.length_rotation]
      exact all_
    have lists := congrArg (List.take e.rotation.length) (listed same)
    rwa [List.take_take, Nat.min_eq_left few, ← List.map_take, List.take_take, Nat.min_eq_left few,
      List.take_length] at lists
  next more =>
  split
  · exact minds_impossible good₂
  next server stored =>
  split
  · exact minds_impossible good₂
  next written =>
  refine ⟨good₂, quiet.trans quiet₂, fun unchanged => ?_⟩
  have same : e₁.rotation = e.rotation := quiet.onward.same quiet₂.onward unchanged
  have member : e.rotation[i]? = some server := by
    rw [← same, Watch.rotation, rotation_getElem? (Nat.not_le.mp more), stored]
  have extended := take_write written
  rw [listed same] at extended
  refine extended.trans ?_
  rw [List.take_add_one, member]
  simp

/-- What crossing off leaves of the watched server's entries on the list: all of them unless a pong of the server
has been taken, and else one less. -/
structure Crossed (watched : Server) (e e₁ : Watch) (offline rest : List UInt8) : Prop where
  kept : e.pause = true → e.owed watched ≤ e₁.owed watched →
    offline.count watched.id.toUInt8 ≤ rest.count watched.id.toUInt8
  less : rest.count watched.id.toUInt8 ≤ offline.count watched.id.toUInt8
  gone : e.heard = false → e₁.heard = true → rest.count watched.id.toUInt8 ≤ offline.count watched.id.toUInt8 - 1

theorem Crossed.later (crossed : Crossed watched e e₁ offline rest) (first : Later watched e e₁)
    (quiet : Quiet watched e₁ e₂) : Crossed watched e e₂ offline rest where
  kept paused still := crossed.kept paused (still.trans (quiet.fewer (first.fewer paused).1).2)
  less := crossed.less
  gone unheard heard := crossed.gone unheard (quiet.heard ▸ heard)

theorem crossOff_minds (population : Population all) (online : all watched) (stable : Stable all watched Good)
    (good : Good e) (offline : Bytes) (cnt : UInt8) :
    Minds all watched allowed Good (crossOff offline cnt) (fun rest e₁ => (Good e₁ ∧ Later watched e e₁) ∧
      Crossed watched e e₁ (offline.take cnt.toNat) (rest.1.take rest.2.toNat) ∧
      ∃ e₂, allowed e₂ (.act .recvfrom) ∧ e₂.health.socket = [] ∧ e₁.heard = e₂.heard) e := by
  simp only [crossOff, act, request, bind_eq, pure_eq, call_bind, ret_bind]
  refine minds_quiet online stable good trivial (by rintro ⟨⟩) fun buffer e₀ good₀ quiet₀ _ => ?_
  have start : Crossed watched e e₀ (offline.take cnt.toNat) (offline.take cnt.toNat) :=
    ⟨fun _ _ => le_rfl, le_rfl, fun unheard heard => absurd (unheard.symm.trans (quiet₀.heard ▸ heard)) (by decide)⟩
  refine obeys_upholding_loop (fun rest e₁ => (Good e₁ ∧ Later watched e e₁) ∧
    Crossed watched e e₁ (offline.take cnt.toNat) (rest.1.take rest.2.1.toNat)) ⟨⟨good₀, quiet₀.toLater⟩, start⟩ ?_
  rintro ⟨rest, left, last⟩ e₁ ⟨⟨good₁, later₁⟩, crossed⟩
  refine ⟨good₁, obeys_upholding good₁ fun got e₂ e₃ answered drifts => ?_⟩
  obtain ⟨allows, ⟨good₂, later₂⟩, reads⟩ := replies_reads stable good₁ answered
  obtain ⟨good₃, quiet₃⟩ := watchDrifts_quiet online stable good₂ drifts
  have later := (later₁.trans later₂).trans quiet₃.toLater
  cases reads with
  | nothing empty same =>
    have quiet : Quiet watched e₁ e₃ := ⟨later₂.trans quiet₃.toLater, quiet₃.heard.trans same⟩
    exact ⟨⟨good₃, later⟩, crossed.later later₁ quiet, e₁, allows, empty, quiet.heard⟩
  | @pong server known owes hears =>
    simp only
    split
    · exact minds_impossible good₃
    next rest₁ left₁ out =>
    have fits : left.toNat ≤ rest.length := by
      have within := crossOut_fits out
      omega
    obtain ⟨_, _, out₁, _, without⟩ := crossOut_eq fits server.id.toUInt8
    cases out.symm.trans out₁
    suffices both : Crossed watched e e₂ (offline.take cnt.toNat) (rest₁.take left₁.toNat) from
      ⟨⟨good₃, later⟩, both.later (later₁.trans later₂) quiet₃⟩
    rw [without]
    have less : (rest.take left.toNat).count watched.id.toUInt8 ≤ (offline.take cnt.toNat).count watched.id.toUInt8 :=
      crossed.less
    by_cases mine : server = watched
    · subst mine
      have one : ((rest.take left.toNat).erase server.id.toUInt8).count server.id.toUInt8 =
          (rest.take left.toNat).count server.id.toUInt8 - 1 := List.count_erase_self
      refine ⟨fun paused still => ?_, by omega, fun _ _ => by omega⟩
      obtain ⟨paused₁, fewer⟩ := later₁.fewer paused
      have taken := owes rfl paused₁
      omega
    · have other : watched.id.toUInt8 ≠ server.id.toUInt8 := fun same =>
        mine (population.byte_distinct online known same).symm
      have same : ((rest.take left.toNat).erase server.id.toUInt8).count watched.id.toUInt8 =
          (rest.take left.toNat).count watched.id.toUInt8 := List.count_erase_of_ne other
      refine ⟨fun paused still => ?_, by omega, fun unheard heard => ?_⟩
      · have fewer := (later₂.fewer (later₁.fewer paused).1).2
        exact same ▸ crossed.kept paused (still.trans fewer)
      · exact same ▸ crossed.gone unheard ((hears heard).resolve_right mine)

end
end DnsServer
