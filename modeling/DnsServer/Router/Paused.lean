import DnsServer.Router.Detection

/-! A server that is paused: it handles one more datagram at most, and its pongs that are still to be taken are
all that keeps it in the rotation. -/
namespace DnsServer
open Process Program Relation Memory

/-- What holds at any time of the round that began at `s`. -/
structure During (all : Server → Prop) (watched : Server) (s e : Watch) : Prop where
  genuine : Genuine all e.health
  absent : watched ∉ e.health.joined
  stays : watched ∈ e.rotation → watched ∈ s.rotation
  fewer : s.pause = true → e.pause = true ∧ e.owed watched ≤ s.owed watched

/-- The server was paused when the round began, and no pong of it has been taken since. -/
def Due (watched : Server) (s e : Watch) : Prop := s.pause = true ∧ s.owed watched ≤ e.owed watched

/-- While no pong of it has been taken, the watched server is yet to be removed as often as it is in the rotation. -/
def StillListed (watched : Server) (s : Watch) (offline : List UInt8) (e : Watch) : Prop :=
  Due watched s e → e.rotation.count watched ≤ offline.count watched.id.toUInt8

section
variable {all : Server → Prop} {watched : Server} {s e e₁ : Watch}

theorem during_stable : Stable all watched (During all watched s) where
  genuine _ during := during.genuine
  absent _ during := during.absent
  later e e₁ during genuine absent later := by
    refine ⟨genuine, absent, fun member => during.stays ?_, fun paused => ?_⟩
    · have same := (later.onward.joined watched absent).2
      rw [Watch.rotation, ← List.count_pos_iff] at member ⊢
      omega
    · obtain ⟨paused, less⟩ := during.fewer paused
      obtain ⟨paused, less₁⟩ := later.fewer paused
      exact ⟨paused, less₁.trans less⟩

theorem listed_later (listed : StillListed watched s offline e) (during : During all watched s e)
    (absent : watched ∉ e₁.health.joined) (later : Later watched e e₁) : StillListed watched s offline e₁ := by
  rintro ⟨paused, still⟩
  rw [Watch.rotation, (later.onward.joined watched absent).2]
  exact listed ⟨paused, still.trans (later.fewer (during.fewer paused).1).2⟩

theorem eraseP_eq_erase [DecidableEq α] {p : α → Bool} {l : List α} (told : ∀ x ∈ l, p x = true ↔ x = a) :
    l.eraseP p = l.erase a := by
  induction l with
  | nil => rfl
  | cons x l ih =>
    obtain ⟨here, rest⟩ := List.forall_mem_cons.mp told
    rw [List.eraseP_cons, List.erase_cons, ih rest]
    by_cases same : x = a
    · rw [here.mpr same, if_pos (by simpa using same)]
      rfl
    · rw [if_neg (by simpa using same), Bool.eq_false_iff.mpr fun found => same (here.mp found)]
      rfl

theorem during_removing (population : Population all) (online : all watched) :
    Removing all watched (During all watched s)
      (fun offline e => During all watched s e ∧ StillListed watched s offline e) where
  stable offline :=
    { genuine := fun _ holds => holds.1.genuine
      absent := fun _ holds => holds.1.absent
      later := fun e e₁ holds genuine absent later =>
        ⟨during_stable.later e e₁ holds.1 genuine absent later, listed_later holds.2 holds.1 absent later⟩ }
  good _ _ holds := holds.1
  erased dnsId offline e router holds genuine erased := by
    obtain ⟨during, listed⟩ := holds
    refine ⟨⟨genuine, during.absent, fun member => during.stays ?_, during.fewer⟩, fun due => ?_⟩
    · change watched ∈ router.rotation at member
      rw [erased] at member
      exact List.mem_of_mem_eraseP member
    change router.rotation.count watched ≤ _
    have before := listed due
    rw [erased]
    by_cases mine : watched.id.toUInt8 = dnsId
    · subst mine
      have told : ∀ server ∈ e.rotation,
          decide (server.id = watched.id.toUInt8.toUInt16) = true ↔ server = watched := by
        intro server member
        rw [decide_eq_true_eq, population.id_of_byte online]
        have known := during.genuine.servers server member
        exact ⟨population.distinct server watched known online, fun same => same ▸ rfl⟩
      rw [List.count_cons_self] at before
      rw [eraseP_eq_erase told, List.count_erase_self]
      omega
    · rw [List.count_cons_of_ne (Ne.symm mine)] at before
      exact (List.eraseP_sublist.count_le watched).trans before
  kept offline e router holds genuine same := by
    obtain ⟨during, listed⟩ := holds
    refine ⟨⟨genuine, during.absent, fun member => during.stays ?_, during.fewer⟩, fun due => ?_⟩
    · change watched ∈ router.rotation at member
      rwa [same] at member
    · exact (congrArg (List.count watched) same).trans_le (listed due)

/-- The round began at `s`. If it returns 0 and keeps a server that was paused before it, it has taken a pong of the
server. -/
def Begun (all : Server → Prop) (watched : Server) (X : Watched) (s : Watch) : Prop :=
  Upheld (Watch.Replies watched fun _ _ => True) (WatchDrift all watched) (During all watched s) X.round
    (fun code e => code = 0 → watched ∈ e.rotation → ¬ Due watched s e) X.env

theorem begun_now (population : Population all) (online : all watched) (genuine : Genuine all e.health)
    (absent : watched ∉ e.health.joined) : Begun all watched ⟨queryResponseTime, e, since, ended⟩ e := by
  intro e₁ drifts
  have now : During all watched e e := ⟨genuine, absent, fun member => member, fun paused => ⟨paused, le_rfl⟩⟩
  obtain ⟨during₁, quiet₁⟩ := watchDrifts_quiet online during_stable now drifts
  apply (queryResponseTime_minds population online during_stable (during_removing population online) during₁ _).mono
  · rintro code e₂ ⟨during₂, judged⟩
    refine ⟨during₂, fun zero member due => ?_⟩
    exact absurd (List.count_pos_iff.mpr member) (Nat.not_lt.mpr ((judged zero).2 due))
  intro e₂ offline during₂ read
  refine ⟨during₂, fun due => ?_⟩
  have kept := read.crossed.kept (quiet₁.fewer due.1).1 ((quiet₁.fewer due.1).2.trans due.2)
  rw [read.whole]
  exact (count_bytes population online during₁.genuine.servers).symm.trans_le kept

theorem begun_next (population : Population all) (online : all watched) (begun : Begun all watched X s)
    (returned : X.round = .ret code) (since : Bool) (ended : Nat) :
    (During all watched s X.env ∧ (code = 0 → watched ∈ X.env.rotation → ¬ Due watched s X.env)) ∧
      let e := { X.env with health := X.env.health.begin, heard := false }
      Begun all watched ⟨queryResponseTime, e, since, ended⟩ e := by
  have judged := begun X.env .refl
  rw [returned] at judged
  exact ⟨judged, begun_now population online (genuine_begin judged.1.genuine) List.not_mem_nil⟩

theorem replies_fewer {op : platform.Call} {r : op.Reply} (during : During all watched s e)
    (answered : e.Replies watched (fun _ _ => True) op r e₁) :
    e.pause = true → e₁.pause = true ∧ e₁.owed watched ≤ e.owed watched := by
  by_cases reads : op = .act .recvfrom
  · subst reads
    exact (replies_reads during_stable during answered).2.1.2.fewer
  · obtain ⟨_, health, ⟨_, world, answered⟩, rfl⟩ := answered
    obtain ⟨pongs, socket, _⟩ := reply_pongs reads answered
    refine fun paused => ⟨paused, ?_⟩
    simp only [Watch.owed, Health.unread, pongs, socket, le_refl]

/-- A step of the round neither ends a pause nor makes the server owe more in it. -/
theorem shared_fewer {p p₁ : Proc UInt8} (online : all watched) (during : During all watched s e)
    (moved : Shared (Watch.Replies watched fun _ _ => True) (WatchDrift all watched) (p, e) (p₁, e₁)) :
    e.pause = true → e₁.pause = true ∧ e₁.owed watched ≤ e.owed watched := by
  cases moved with
  | call answered => exact replies_fewer during answered
  | turn => exact fun paused => ⟨paused, le_rfl⟩
  | drift changed => exact (watchDrift_quiet online during_stable during changed).2.fewer

/-- Until the server is paused, nothing is counted. -/
theorem watched_before (population : Population all) (online : all watched) (start : X.Start all)
    (run : ReflTransGen (Watched.Step all watched fun _ _ => True) X Y) :
    (∃ s, Begun all watched Y s) ∧ (Y.env.pause = false → Y.since = false ∧ Y.ended = 0) := by
  induction run with
  | refl =>
    have absent : watched ∉ X.env.health.joined := by
      rw [show X.env.health.joined = [] from start.rounds.joined]
      exact List.not_mem_nil
    have begun : Begun all watched ⟨queryResponseTime, X.env, X.since, X.ended⟩ X.env :=
      begun_now population online (genuine_start start.rounds) absent
    rw [← show X.round = queryResponseTime from start.rounds.program] at begun
    exact ⟨⟨X.env, begun⟩, fun _ => ⟨start.since, start.ended⟩⟩
  | @tail Y _ _ step ih =>
    obtain ⟨⟨s, begun⟩, quiet⟩ := ih
    cases step with
    | within moved =>
      refine ⟨⟨s, begun.step moved⟩, fun running => quiet ?_⟩
      by_contra paused
      rw [(shared_fewer online begun.now moved (Bool.eq_true_of_not_eq_false paused)).1] at running
      cases running
    | @next _ code returned =>
      refine ⟨⟨_, (begun_next population online begun returned _ _).2⟩, fun running => ⟨running, ?_⟩⟩
      obtain ⟨since, ended⟩ := quiet running
      have uncounted : ¬ (Y.since = true ∧ code = 0) := by simp [since]
      exact (if_neg uncounted).trans ended

/-- A server that is paused since it owed `k` pongs: the round that it was paused in goes on, or a later one. -/
structure Waning (all : Server → Prop) (watched : Server) (k : Nat) (Z : Watched) (s : Watch) : Prop where
  begun : Begun all watched Z s
  paused : Z.env.pause = true
  first : Z.since = false → Z.ended = 0 ∧ Z.env.owed watched ≤ k
  later : Z.since = true → s.pause = true ∧ (watched ∈ s.rotation → Z.ended + s.owed watched ≤ k)

theorem waning_step (population : Population all) (online : all watched) (waning : Waning all watched k Z s)
    (step : Watched.Step all watched (fun _ _ => True) Z Z₁) : ∃ s₁, Waning all watched k Z₁ s₁ := by
  cases step with
  | within moved =>
    obtain ⟨paused, fewer⟩ := shared_fewer online waning.begun.now moved waning.paused
    refine ⟨s, waning.begun.step moved, paused, fun since => ?_, waning.later⟩
    obtain ⟨none, few⟩ := waning.first since
    exact ⟨none, fewer.trans few⟩
  | @next _ code returned =>
    obtain ⟨⟨during, judged⟩, begun⟩ := begun_next population online waning.begun returned Z.env.pause
      (if Z.since ∧ code = 0 then Z.ended + 1 else Z.ended)
    refine ⟨_, begun, waning.paused, fun since => ?_, fun _ => ⟨waning.paused, fun member => ?_⟩⟩
    · exact absurd (waning.paused.symm.trans since) (by decide)
    change (if Z.since = true ∧ code = 0 then Z.ended + 1 else Z.ended) + Z.env.owed watched ≤ k
    cases since : Z.since with
    | false =>
      obtain ⟨none, few⟩ := waning.first since
      have uncounted : ¬ (false = true ∧ code = 0) := fun both => absurd both.1 (by decide)
      rw [if_neg uncounted, none]
      omega
    | true =>
      obtain ⟨paused, count⟩ := waning.later since
      have bound := count (during.stays member)
      have fewer := (during.fewer paused).2
      split
      · next both =>
        have taken : ¬ s.owed watched ≤ Z.env.owed watched := fun same => judged both.2 member ⟨paused, same⟩
        omega
      · omega

/-- Once a server is paused it leaves the rotation, for good: it is not there any more after more rounds than it
has pongs on the way, one of which it still sends if its thread has passed the check. -/
theorem paused_server_leaves (population : Population all) (online : all watched) (start : X.Start all)
    (before : ReflTransGen (Watched.Step all watched fun _ _ => True) X Y) (running : Y.env.pause = false)
    (after : ReflTransGen (Watched.Step all watched fun _ _ => True) { Y with env := { Y.env with pause := true } } Z)
    (more : Y.env.owed watched < Z.ended) : watched ∉ Z.env.rotation := by
  obtain ⟨⟨s, begun⟩, quiet⟩ := watched_before population online start before
  obtain ⟨since, ended⟩ := quiet running
  have waning : ∃ s, Waning all watched (Y.env.owed watched) Z s := by
    clear more
    induction after with
    | refl =>
      refine ⟨s, begun.step (.drift .pause), rfl, fun _ => ⟨ended, le_rfl⟩, fun counted => ?_⟩
      exact absurd (since.symm.trans counted) (by decide)
    | tail _ step ih =>
      obtain ⟨s₁, waning⟩ := ih
      exact waning_step population online waning step
  obtain ⟨s₁, waning⟩ := waning
  intro member
  cases counted : Z.since with
  | false => exact absurd (waning.first counted).1 (by omega)
  | true =>
    have bound := (waning.later counted).2 (waning.begun.now.stays member)
    omega

end

/-- A round, and the step to the next one. -/
theorem watched_round {e e₁ : Watch} {since : Bool} {ended : Nat}
    (ran : run watching 60 queryResponseTime e = some (code, e₁)) :
    ReflTransGen (Watched.Step (· = serverA) serverA fun _ _ => True) ⟨queryResponseTime, e, since, ended⟩
      ⟨queryResponseTime, { e₁ with health := e₁.health.begin, heard := false }, e₁.pause,
        if since ∧ code = 0 then ended + 1 else ended⟩ :=
  (watched_runs since ended (watched_alone (fun _ _ _ _ => watching_replies) (runs_of_run ran))).tail (.next rfl)

/-- The only server is paused before it reads its first ping. -/
theorem paused_server_leaves_first : ∃ Z : Watched,
    ReflTransGen (Watched.Step (· = serverA) serverA fun _ _ => True)
      ⟨queryResponseTime, ⟨oneOnline, true, false, false⟩, false, 0⟩ Z ∧
    Z.ended = 1 ∧ serverA ∉ Z.env.rotation := by
  have start : Watched.Start (· = serverA) ⟨queryResponseTime, ⟨oneOnline, false, false, false⟩, false, 0⟩ :=
    ⟨oneOnline_start, rfl, rfl, rfl, rfl⟩
  have first : ReflTransGen (Watched.Step (· = serverA) serverA fun _ _ => True)
      ⟨queryResponseTime, ⟨oneOnline, true, false, false⟩, false, 0⟩ _ := watched_round rfl
  have after := first.trans (watched_round rfl)
  exact ⟨_, after, rfl, paused_server_leaves onlyA_population rfl start .refl rfl after (by decide)⟩

end DnsServer
