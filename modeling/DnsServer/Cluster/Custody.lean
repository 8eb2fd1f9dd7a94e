import DnsServer.Cluster.Effects

/-! Who has which server's contents: the threads, a message on its way or nobody in particular. No
step of a thread that follows the protocol upsets what is known of them. -/
namespace DnsServer
open Process

inductive Keeper where
  | pool
  | thread (t : ClusterThread)
  | wire (n : Nat)

/-- Outside a session the contents are in the pool, and in step for the rotation. -/
structure Kept (object : Bytes → Server) (L : Links ClusterThread Talk) (owner : UInt16 → Keeper)
    (g : ClusterThread → Position) (G : ClusterState) : Prop where
  linked : Linked (dialogue object) greeting L (fun t => (g t).ends) G
  cells : (g t).cells p = some c → owner p = .thread t ∧ G.mem.coms p = c
  flying : n < G.next → Sent (dialogue object) (L.sides n) (G.conns n) d msg →
    (L.sides n d).load p = some c → owner p = .wire n ∧ G.mem.coms p = c
  router : (g t).router = some r → G.locks Lock.tcpMutex = some t ∧ G.mem.router = r
  session : n < G.next → (L.sides n .server).session = some ports →
    (∃ τ, (g .router).ends ⟨n, .server⟩ = some τ) ∧ ∃ r, (g .router).router = some r ∧ r.ports = ports
  pool : ¬ SessionOpen G → Listed G.mem.router.ports G.mem.coms ∧ ∀ p, owner p = .pool
  neat : ∀ p, Neat (G.mem.coms p).ipHash.entries
  covered : G.mem.router.Covered
  object : G.mem.object = object

section
variable {object : Bytes → Server} {view : Side → Talk} {conn : Conn}

theorem minus_some {a b : Cells} (held : a.minus b p = some c) : b p = none ∧ a p = some c := by
  unfold Cells.minus at held
  split at held
  · cases held
  · next free => exact ⟨Option.not_isSome_iff_eq_none.mp free, held⟩

theorem plus_some {a b : Cells} (held : a.plus b p = some c) :
    b p = some c ∨ b p = none ∧ a p = some c := by
  unfold Cells.plus at held
  cases given : b p with
  | some c' =>
    rw [given] at held
    exact .inl held
  | none =>
    rw [given] at held
    exact .inr ⟨rfl, held⟩

/-- While the client is in a session so is the server. -/
theorem session_server (wire : Wire (dialogue object) view conn)
    (session : (view .client).session = some ports) : (view .server).session = some ports := by
  rcases wire.flight with settled | ⟨d, msg, turn, said, _, _⟩
  · rw [show view .server = view .client from (settled .client).1]
    exact session
  · cases d with
    | client =>
      change Speaks object (view .server) msg (view .client) at said
      change (view .server).speaker = some .client at turn
      rcases speaks_session said session with asked | same
      · rw [asked] at turn
        cases turn
      · exact same
    | server =>
      change Speaks object (view .client) msg (view .server) at said
      change (view .client).speaker = some .server at turn
      generalize view .client = τ at said turn session
      generalize view .server = τ₁ at said
      cases said with
      | port => exact session
      | ack | reply | giveUp => cases turn
      | _ => cases session

end

section
variable {object : Bytes → Server} {L : Links ClusterThread Talk} {owner : UInt16 → Keeper}
  {g : ClusterThread → Position} {G : ClusterState}

theorem ends_update (g : ClusterThread → Position) (t : ClusterThread) (s : Position) :
    (fun u => (Function.update g t s u).ends) = Function.update (fun u => (g u).ends) t s.ends :=
  Function.comp_update Position.ends g t s

namespace Kept

theorem linkedKept (kept : Kept object L owner g G) {s : Position} {G₁ : ClusterState}
    (same : s.ends = (g t).ends) (next : G₁.next = G.next) (conns : G₁.conns = G.conns)
    (backlog : G₁.backlog = G.backlog) :
    Linked (dialogue object) greeting L (fun u => (Function.update g t s u).ends) G₁ := by
  have ends : Function.update (fun u => (g u).ends) t (g t).ends = fun u => (g u).ends :=
    Function.update_eq_self t _
  rw [ends_update, same, ends]
  exact kept.linked.congr next conns backlog

theorem knows (kept : Kept object L owner g G) (t : ClusterThread) : (g t).Knows object G.mem where
  cells held := (kept.cells held).2
  router held := (kept.router held).2
  session := by
    intro s τ ports own session
    obtain ⟨old, _, rfl⟩ := kept.linked.ends own
    have inSession : (L.sides s.conn .server).session = some ports := by
      obtain ⟨n, d⟩ := s
      cases d with
      | client => exact session_server (kept.linked.wires n old) session
      | server => exact session
    obtain ⟨_, r, known, rfl⟩ := kept.session old inSession
    rw [(kept.router known).2]
  neat := kept.neat
  covered := kept.covered
  object := kept.object

theorem not_kept (kept : Kept object L owner g G) (other : owner p ≠ .thread t) :
    (g t).cells p = none := by
  by_contra held
  obtain ⟨c, held⟩ := Option.ne_none_iff_exists'.mp held
  exact other (kept.cells held).1

theorem setThread (kept : Kept object L owner g G) (t : ClusterThread) (k : Proc UInt8) :
    Kept object L owner g (G.setThread t k) :=
  ⟨kept.linked.congr rfl rfl rfl, kept.cells, kept.flying, kept.router, kept.session, kept.pool,
    kept.neat, kept.covered, kept.object⟩

/-- A conversation begins or is taken up. -/
theorem meet (kept : Kept object L owner g G)
    (linked : Linked (dialogue object) greeting L₁
      (Function.update (fun u => (g u).ends) t (Function.update (g t).ends s (some τ))) G₁)
    (free : (g t).ends s = none) (mem : G₁.mem = G.mem) (locks : G₁.locks = G.locks)
    (old : ∀ n < G₁.next, n < G.next ∧ L₁.sides n = L.sides n ∧ G₁.conns n = G.conns n ∨
      Silent (L₁.sides n) (G₁.conns n) ∧ (L₁.sides n .server).session = none) :
    Kept object L₁ owner (Function.update g t ((g t).meet s τ)) G₁ := by
  have cells : ∀ u, (Function.update g t ((g t).meet s τ) u).cells = (g u).cells := by
    refine (Function.forall_update_iff g fun u s => s.cells = (g u).cells).mpr ⟨rfl, fun _ _ => rfl⟩
  have router : ∀ u, (Function.update g t ((g t).meet s τ) u).router = (g u).router := by
    refine (Function.forall_update_iff g fun u s => s.router = (g u).router).mpr ⟨rfl, fun _ _ => rfl⟩
  have ends : ∀ u s' τ', (g u).ends s' = some τ' →
      ∃ τ', (Function.update g t ((g t).meet s τ) u).ends s' = some τ' := by
    intro u s' τ' own
    by_cases self : u = t
    · subst self
      rw [Function.update_self]
      refine ⟨τ', (Function.update_of_ne ?_ _ _).trans own⟩
      rintro rfl
      cases free.symm.trans own
    · rw [Function.update_of_ne self]
      exact ⟨τ', own⟩
  constructor
  · rw [ends_update]
    exact linked
  · intro u p c held
    rw [cells] at held
    rw [mem]
    exact kept.cells held
  · intro n d msg p c inside sent load
    rcases old n inside with ⟨before, sides, conns⟩ | ⟨settled, _⟩
    · rw [sides, conns] at sent
      rw [sides] at load
      rw [mem]
      exact kept.flying before sent load
    · exact absurd sent settled.not_sent
  · intro u r known
    rw [router] at known
    rw [mem, locks]
    exact kept.router known
  · intro n ports inside session
    rcases old n inside with ⟨before, sides, conns⟩ | ⟨_, outside⟩
    · rw [sides] at session
      obtain ⟨⟨τ', own⟩, r, known, same⟩ := kept.session before session
      exact ⟨ends _ _ _ own, r, (router _).trans known, same⟩
    · cases outside.symm.trans session
  · intro closed
    rw [mem]
    refine kept.pool ?_
    unfold SessionOpen at closed ⊢
    rwa [locks] at closed
  · rw [mem]
    exact kept.neat
  · rw [mem]
    exact kept.covered
  · rw [mem]
    exact kept.object

/-- Whoever goes on in a conversation, the router stays in its sessions. -/
theorem session_learn (kept : Kept object L owner g G) {s₁ : Position}
    (ends : s₁.ends = Function.update (g t).ends s (some τ)) (router : s₁.router = (g t).router)
    (inside : n < G.next) (session : (L.sides n .server).session = some ports) :
    (∃ τ, (Function.update g t s₁ .router).ends ⟨n, .server⟩ = some τ) ∧
      ∃ r, (Function.update g t s₁ .router).router = some r ∧ r.ports = ports := by
  obtain ⟨⟨τ', own⟩, r, known, same⟩ := kept.session inside session
  by_cases self : .router = t
  · subst self
    rw [Function.update_self, ends, router]
    refine ⟨?_, r, known, same⟩
    by_cases here : (⟨n, .server⟩ : Socket) = s
    · exact ⟨τ, by rw [here, Function.update_self]⟩
    · exact ⟨τ', (Function.update_of_ne here _ _).trans own⟩
  · rw [Function.update_of_ne self]
    exact ⟨⟨τ', own⟩, r, known, same⟩

/-- A load passes from one keeper to another along a connection. What else is known stays as it is. -/
theorem pass (kept : Kept object L owner g G) {s₁ : Position} {giver taker : Keeper}
    (ends : s₁.ends = Function.update (g t).ends s (some τ₁)) (router : s₁.router = (g t).router)
    (linked : Linked (dialogue object) greeting (L.learn s τ₁)
      (Function.update (fun u => (g u).ends) t s₁.ends) (G.setConn s.conn conn))
    (free : ∀ p, owner p ≠ giver → τ₁.load p = none) (parties : giver = .thread t ∨ giver = .wire s.conn)
    (cells : ∀ {p c}, s₁.cells p = some c →
      (if (τ₁.load p).isSome then taker else owner p) = .thread t ∧ G.mem.coms p = c)
    (flying : ∀ {d msg p c}, Sent (dialogue object) ((L.learn s τ₁).sides s.conn) conn d msg →
      ((L.learn s τ₁).sides s.conn d).load p = some c →
      (if (τ₁.load p).isSome then taker else owner p) = .wire s.conn ∧ G.mem.coms p = c)
    (session : ∀ {n ports}, s = ⟨n, .server⟩ → n < G.next → τ₁.session = some ports →
      (∃ τ, (Function.update g t s₁ .router).ends ⟨n, .server⟩ = some τ) ∧
        ∃ r, (Function.update g t s₁ .router).router = some r ∧ r.ports = ports) :
    Kept object (L.learn s τ₁) (fun p => if (τ₁.load p).isSome then taker else owner p)
      (Function.update g t s₁) (G.setConn s.conn conn) := by
  have conns : ∀ n, n ≠ s.conn → (G.setConn s.conn conn).conns n = G.conns n :=
    fun n other => Function.update_of_ne other _ _
  have stays : ∀ p, owner p ≠ .thread t → owner p ≠ .wire s.conn → τ₁.load p = none := by
    intro p thread wire
    refine free p fun given => ?_
    rcases parties with rfl | rfl
    · exact thread given
    · exact wire given
  constructor
  · rw [ends_update]
    exact linked
  · refine fun {u} => (Function.forall_update_iff g fun u s' => ∀ {p c}, s'.cells p = some c →
      (if (τ₁.load p).isSome then taker else owner p) = .thread u ∧ G.mem.coms p = c).mpr ⟨cells, ?_⟩ u
    intro u other p c held
    obtain ⟨keeper, content⟩ := kept.cells held
    rw [stays p (by rw [keeper]; simpa using other) (by rw [keeper]; rintro ⟨⟩)]
    exact ⟨keeper, content⟩
  · intro n d msg' p c inside sent' loaded
    by_cases here : n = s.conn
    · subst here
      change Sent _ _ (Function.update G.conns s.conn conn s.conn) d msg' at sent'
      rw [Function.update_self] at sent'
      exact flying sent' loaded
    · rw [Links.sides_learn_other L τ₁ here] at sent' loaded
      rw [conns n here] at sent'
      obtain ⟨keeper, content⟩ := kept.flying inside sent' loaded
      rw [stays p (by rw [keeper]; rintro ⟨⟩) (by rw [keeper]; simpa using here)]
      exact ⟨keeper, content⟩
  · refine fun {u} => (Function.forall_update_iff g fun u s' => ∀ {r}, s'.router = some r →
      G.locks Lock.tcpMutex = some u ∧ G.mem.router = r).mpr ⟨?_, ?_⟩ u
    · intro r known
      rw [router] at known
      exact kept.router known
    · intro u _ r known
      exact kept.router known
  · intro n ports inside known
    by_cases here : (⟨n, .server⟩ : Socket) = s
    · subst here
      rw [Links.sides_learn, Function.update_self] at known
      exact session rfl inside known
    · refine kept.session_learn ends router inside ?_
      rwa [show (L.learn s τ₁).sides n .server = L.sides n .server from
        Function.update_of_ne here _ _] at known
  · intro closed
    obtain ⟨listed, unowned⟩ := kept.pool closed
    refine ⟨listed, fun p => ?_⟩
    rw [stays p (by rw [unowned]; rintro ⟨⟩) (by rw [unowned]; rintro ⟨⟩)]
    exact unowned p
  · exact kept.neat
  · exact kept.covered
  · exact kept.object

/-- What goes along with a message leaves the thread's hands. -/
theorem speak (kept : Kept object L owner g G) (own : (g t).ends s = some τ)
    (said : Speaks object τ msg τ₁) (within : τ₁.load.Within (g t).cells)
    (opens : τ = .asked → t = .router ∧ ∃ r, (g t).router = some r ∧ τ₁.session = some r.ports)
    (linked : Linked (dialogue object) greeting (L.learn s τ₁)
      (Function.update (fun u => (g u).ends) t (Function.update (g t).ends s (some τ₁)))
      (G.setConn s.conn conn))
    (sent : Sent (dialogue object) ((L.learn s τ₁).sides s.conn) conn s.side msg) :
    Kept object (L.learn s τ₁) (fun p => if (τ₁.load p).isSome then .wire s.conn else owner p)
      (Function.update g t ((g t).speak s τ₁)) (G.setConn s.conn conn) := by
  obtain ⟨old, _, knows⟩ := kept.linked.ends own
  have free : ∀ p, owner p ≠ .thread t → τ₁.load p = none := by
    intro p other
    by_contra loaded
    obtain ⟨c, loaded⟩ := Option.ne_none_iff_exists'.mp loaded
    exact other (kept.cells (within p c loaded)).1
  refine kept.pass rfl rfl linked free (.inl rfl) ?_ ?_ ?_
  · intro p c held
    obtain ⟨stays, held⟩ := minus_some held
    rw [stays]
    exact kept.cells held
  · intro d msg' p c sent' loaded
    obtain rfl := sent.unique sent'
    rw [Links.sides_learn, Function.update_self] at loaded
    exact ⟨by rw [loaded]; rfl, (kept.cells (within p c loaded)).2⟩
  · rintro n ports rfl inside session
    rcases speaks_session said session with asked | before
    · obtain ⟨rfl, r, known, opened⟩ := opens asked
      rw [Function.update_self]
      refine ⟨⟨τ₁, Function.update_self _ _ _⟩, r, known, ?_⟩
      rw [opened] at session
      exact Option.some.inj session
    · rw [← knows] at before
      exact kept.session_learn rfl rfl inside before

/-- What comes with a message passes into the thread's hands. -/
theorem hear (kept : Kept object L owner g G) (own : (g t).ends s = some τ)
    (said : Speaks object τ msg τ₁)
    (sent : Sent (dialogue object) (L.sides s.conn) (G.conns s.conn) s.side.other msg)
    (other : L.sides s.conn s.side.other = τ₁)
    (linked : Linked (dialogue object) greeting (L.learn s τ₁)
      (Function.update (fun u => (g u).ends) t (Function.update (g t).ends s (some τ₁)))
      (G.setConn s.conn conn))
    (settled : Silent ((L.learn s τ₁).sides s.conn) conn) :
    Kept object (L.learn s τ₁) (fun p => if (τ₁.load p).isSome then .thread t else owner p)
      (Function.update g t ((g t).hear s τ₁)) (G.setConn s.conn conn) := by
  obtain ⟨old, _, knows⟩ := kept.linked.ends own
  have carried : ∀ {p c}, τ₁.load p = some c → owner p = .wire s.conn ∧ G.mem.coms p = c := by
    intro p c loaded
    exact kept.flying old sent (by rw [other]; exact loaded)
  have free : ∀ p, owner p ≠ .wire s.conn → τ₁.load p = none := by
    intro p differs
    by_contra loaded
    obtain ⟨c, loaded⟩ := Option.ne_none_iff_exists'.mp loaded
    exact differs (carried loaded).1
  refine kept.pass rfl rfl linked free (.inr rfl) ?_ ?_ ?_
  · intro p c held
    rcases plus_some held with loaded | ⟨stays, held⟩
    · rw [loaded]
      exact ⟨rfl, (carried loaded).2⟩
    · rw [stays]
      exact kept.cells held
  · intro d msg' p c sent' _
    exact absurd sent' settled.not_sent
  · rintro n ports rfl inside session
    refine kept.session_learn rfl rfl inside ?_
    rcases speaks_session said session with asked | before
    · have turn := sent.turn
      change (L.view ⟨n, .server⟩).speaker = some .client at turn
      rw [knows, asked] at turn
      cases turn
    · rwa [← knows] at before

/-- An operation changes what is in the thread's hands only. -/
theorem act (kept : Kept object L owner g G) {m₁ : Mem} (affects : Affects (g t) t G.mem m₁) :
    Kept object L owner (Function.update g t ((g t).refresh m₁)) { G with mem := m₁ } := by
  have elsewhere : ∀ p, owner p ≠ .thread t → m₁.coms p = G.mem.coms p :=
    fun p other => affects.coms (kept.not_kept other)
  have unchanged : G.locks Lock.tcpMutex ≠ some t → m₁.router = G.mem.router := by
    intro other
    refine affects.router.resolve_right ?_
    rintro ⟨known, _⟩
    obtain ⟨r, known⟩ := Option.isSome_iff_exists.mp known
    exact other (kept.router known).1
  constructor
  · exact kept.linkedKept rfl rfl rfl rfl
  · refine fun {u} => (Function.forall_update_iff g fun u s' => ∀ {p c}, s'.cells p = some c →
      owner p = .thread u ∧ m₁.coms p = c).mpr ⟨?_, ?_⟩ u
    · intro p c held
      obtain ⟨_, held, content⟩ := Option.map_eq_some_iff.mp held
      exact ⟨(kept.cells held).1, content⟩
    · intro u other p c held
      obtain ⟨keeper, content⟩ := kept.cells held
      rw [elsewhere p (by rw [keeper]; simpa using other)]
      exact ⟨keeper, content⟩
  · intro n d msg p c inside sent loaded
    obtain ⟨keeper, content⟩ := kept.flying inside sent loaded
    refine ⟨keeper, (elsewhere p ?_).trans content⟩
    rw [keeper]
    rintro ⟨⟩
  · refine fun {u} => (Function.forall_update_iff g fun u s' => ∀ {r}, s'.router = some r →
      G.locks Lock.tcpMutex = some u ∧ m₁.router = r).mpr ⟨?_, ?_⟩ u
    · intro r known
      obtain ⟨_, known, content⟩ := Option.map_eq_some_iff.mp known
      exact ⟨(kept.router known).1, content⟩
    · intro u other r known
      obtain ⟨holder, content⟩ := kept.router known
      refine ⟨holder, (unchanged ?_).trans content⟩
      rw [holder]
      simpa using other
  · intro n ports inside session
    obtain ⟨⟨τ, own⟩, r, known, same⟩ := kept.session inside session
    by_cases self : .router = t
    · subst self
      rw [Function.update_self]
      refine ⟨⟨τ, own⟩, m₁.router, by simp [Position.refresh, known], ?_⟩
      rcases affects.router with kept' | ⟨_, changed⟩
      · rw [kept', (kept.router known).2]
        exact same
      · rcases (changed kept.covered).2 with ⟨_, idle⟩ | ⟨other, _⟩
        · obtain ⟨_, _, knows⟩ := kept.linked.ends own
          have outside := idle _ τ own
          rw [← knows] at outside
          cases outside.symm.trans session
        · exact absurd rfl other
    · rw [Function.update_of_ne self]
      exact ⟨⟨τ, own⟩, r, known, same⟩
  · intro closed
    obtain ⟨listed, unowned⟩ := kept.pool closed
    refine ⟨?_, unowned⟩
    have coms : m₁.coms = G.mem.coms := by
      funext p
      apply elsewhere
      rw [unowned]
      rintro ⟨⟩
    change Listed m₁.router.ports m₁.coms
    rw [coms]
    rcases affects.router with same | ⟨known, changed⟩
    · rw [same]
      exact listed
    · rcases (changed kept.covered).2 with ⟨rfl, _⟩ | ⟨_, fewer⟩
      · obtain ⟨r, known⟩ := Option.isSome_iff_exists.mp known
        exact absurd (kept.router known).1 closed
      · exact ⟨listed.toInStep.subset fewer, fun p member => listed.apart p (fewer member)⟩
  · exact affects.neat kept.neat
  · rcases affects.router with same | ⟨_, changed⟩
    · change m₁.router.Covered
      rw [same]
      exact kept.covered
    · exact (changed kept.covered).1
  · exact affects.object.trans kept.object

/-- With the mutex the router's thread gets what is in the pool. -/
theorem lock (kept : Kept object L owner g G) (free : G.locks Lock.tcpMutex = none)
    (t : ClusterThread) :
    Listed G.mem.router.ports G.mem.coms ∧
    Kept object L (fun p => if t = .router then .thread t else owner p)
      (Function.update g t { g t with
        router := some G.mem.router
        cells := if t = .router then .all G.mem.coms else (g t).cells })
      (G.setLock Lock.tcpMutex (some t)) := by
  have closed : ¬ SessionOpen G := by
    intro opened
    cases free.symm.trans opened
  obtain ⟨listed, unowned⟩ := kept.pool closed
  have empty : ∀ u p c, (g u).cells p ≠ some c := by
    intro u p c held
    cases (unowned p).symm.trans (kept.cells held).1
  have unknown : ∀ u r, (g u).router ≠ some r := by
    intro u r known
    cases free.symm.trans (kept.router known).1
  have taken : (G.setLock Lock.tcpMutex (some t)).locks Lock.tcpMutex = some t := by
    simp [State.setLock]
  refine ⟨listed, ?_, ?_, ?_, ?_, ?_, ?_, kept.neat, kept.covered, kept.object⟩
  · exact kept.linkedKept rfl rfl rfl rfl
  · refine fun {u} => (Function.forall_update_iff g fun u s' => ∀ {p c}, s'.cells p = some c →
      (if t = .router then Keeper.thread t else owner p) = .thread u ∧ G.mem.coms p = c).mpr ⟨?_, ?_⟩ u
    · intro p c held
      by_cases self : t = .router
      · simp only [self, if_true] at held ⊢
        exact ⟨trivial, Option.some.inj held⟩
      · simp only [self, if_false] at held
        exact absurd held (empty t p c)
    · intro u _ p c held
      exact absurd held (empty u p c)
  · intro n d msg p c inside sent loaded
    cases (unowned p).symm.trans (kept.flying inside sent loaded).1
  · refine fun {u} => (Function.forall_update_iff g fun u s' => ∀ {r}, s'.router = some r →
      (G.setLock Lock.tcpMutex (some t)).locks Lock.tcpMutex = some u ∧ G.mem.router = r).mpr ⟨?_, ?_⟩ u
    · intro r known
      exact ⟨taken, Option.some.inj known⟩
    · intro u _ r known
      exact absurd known (unknown u r)
  · intro n ports inside session
    obtain ⟨_, r, known, _⟩ := kept.session inside session
    exact absurd known (unknown .router r)
  · intro closed'
    refine ⟨listed, fun p => ?_⟩
    have other : t ≠ .router := by
      rintro rfl
      exact closed' taken
    rw [if_neg other]
    exact unowned p

/-- At the end of a session the contents go back to the pool. -/
theorem unlock (kept : Kept object L owner g G) (known : (g t).router = some r)
    (finished : t = .router → (g t).Idle ∧ ∃ coms, (g t).cells = .all coms ∧ Listed r.ports coms) :
    Kept object L (fun _ => .pool) (Function.update g t { g t with router := none, cells := .none })
      (G.setLock Lock.tcpMutex none) := by
  obtain ⟨holder, record⟩ := kept.router known
  have listed : Listed G.mem.router.ports G.mem.coms ∧ ∀ u, u ≠ t → ∀ p c, (g u).cells p ≠ some c := by
    by_cases self : t = .router
    · obtain ⟨_, coms, all, listed⟩ := finished self
      have held : ∀ p, (g t).cells p = some (coms p) := fun p => congrFun all p
      have same : G.mem.coms = coms := funext fun p => (kept.cells (held p)).2
      refine ⟨by rw [same, record]; exact listed, fun u other p c taken => other ?_⟩
      have keeper := (kept.cells taken).1.symm.trans (kept.cells (held p)).1
      exact Keeper.thread.inj keeper
    · have closed : ¬ SessionOpen G := by
        intro opened
        exact self (Option.some.inj (holder.symm.trans opened))
      obtain ⟨listed, unowned⟩ := kept.pool closed
      refine ⟨listed, fun u _ p c taken => ?_⟩
      cases (unowned p).symm.trans (kept.cells taken).1
  have quiet : ∀ {n d msg p c}, n < G.next → Sent (dialogue object) (L.sides n) (G.conns n) d msg →
      (L.sides n d).load p ≠ some c := by
    intro n d msg p c inside sent loaded
    have keeper := (kept.flying inside sent loaded).1
    by_cases self : t = .router
    · obtain ⟨_, coms, all, _⟩ := finished self
      cases keeper.symm.trans (kept.cells (congrFun all p)).1
    · have closed : ¬ SessionOpen G := by
        intro opened
        exact self (Option.some.inj (holder.symm.trans opened))
      cases keeper.symm.trans ((kept.pool closed).2 p)
  refine ⟨?_, ?_, ?_, ?_, ?_, ?_, kept.neat, kept.covered, kept.object⟩
  · exact kept.linkedKept rfl rfl rfl rfl
  · refine fun {u} => (Function.forall_update_iff g fun u s' => ∀ {p c}, s'.cells p = some c →
      Keeper.pool = .thread u ∧ G.mem.coms p = c).mpr ⟨?_, ?_⟩ u
    · intro p c held
      cases held
    · intro u other p c held
      exact absurd held (listed.2 u other p c)
  · intro n d msg p c inside sent loaded
    exact absurd loaded (quiet inside sent)
  · refine fun {u} => (Function.forall_update_iff g fun u s' => ∀ {r}, s'.router = some r →
      (G.setLock Lock.tcpMutex none).locks Lock.tcpMutex = some u ∧ G.mem.router = r).mpr ⟨?_, ?_⟩ u
    · intro r known
      cases known
    · intro u other r known
      have same := (kept.router known).1.symm.trans holder
      exact absurd (Option.some.inj same) other
  · intro n ports inside session
    obtain ⟨⟨τ, own⟩, r', known', _⟩ := kept.session inside session
    obtain rfl := Option.some.inj ((kept.router known').1.symm.trans holder)
    obtain ⟨_, _, knows⟩ := kept.linked.ends own
    have outside := (finished rfl).1 _ τ own
    rw [← knows] at outside
    cases outside.symm.trans session
  · intro _
    exact ⟨listed.1, fun _ => rfl⟩

theorem unchanged (kept : Kept object L owner g G) {G₁ : ClusterState} (t : ClusterThread)
    (mem : G₁.mem = G.mem) (tcpMutex : G₁.locks Lock.tcpMutex = G.locks Lock.tcpMutex)
    (conns : ∀ n < G.next, (G₁.conns n).inbox = (G.conns n).inbox)
    (linked : Linked (dialogue object) greeting L (fun u => (g u).ends) G₁) (next : G₁.next = G.next) :
    Kept object L owner (Function.update g t (g t)) G₁ := by
  rw [Function.update_eq_self]
  refine ⟨linked, ?_, ?_, ?_, ?_, ?_, ?_, ?_, ?_⟩
  · rw [mem]
    exact kept.cells
  · intro n d msg p c inside sent
    rw [next] at inside
    rw [mem]
    refine kept.flying inside ⟨sent.turn, sent.said, ?_, ?_⟩
    · rw [← conns n inside]
      exact sent.heard
    · rw [← conns n inside]
      exact sent.flies
  · rw [mem, tcpMutex]
    exact kept.router
  · rw [next]
    exact kept.session
  · unfold SessionOpen
    rw [mem, tcpMutex]
    exact kept.pool
  · rw [mem]
    exact kept.neat
  · rw [mem]
    exact kept.covered
  · rw [mem]
    exact kept.object

/-- A permitted request that was promised to be in order leads to a position that the protocol
foresees, where everything is kept. -/
theorem performed (kept : Kept object L owner g G) {call : platform.Call} {r : call.Reply}
    (permitted : Permits object t (g t) call plan)
    (promised : ∀ op, call = .act op → promise calls G.mem t op)
    (done : Perform clusterAction t G call r G₁) :
    ∃ s L₁ owner₁, After calls object t (g t) plan call r s ∧
      Kept object L₁ owner₁ (Function.update g t s) G₁ := by
  cases done with
  | @connect a =>
    obtain ⟨free, linked, settled⟩ := kept.linked.connect t a
    refine ⟨_, _, owner, ⟨free, rfl, rfl⟩, kept.meet linked free rfl rfl ?_⟩
    intro n inside
    rcases Nat.lt_succ_iff_lt_or_eq.mp inside with old | rfl
    · refine .inl ⟨old, ?_, Function.update_of_ne (Nat.ne_of_lt old) _ _⟩
      funext d
      exact if_neg (Nat.ne_of_lt old)
    · refine .inr ⟨?_, ?_⟩
      · simpa [State.setBacklog, State.setConn] using settled
      · have begun : (L.begin G.next t (greeting a)).sides G.next .server = greeting a := if_pos rfl
        rw [begun]
        unfold greeting
        split
        · rfl
        · rfl
  | @accept a n rest waits =>
    obtain ⟨free, linked⟩ := kept.linked.accept t waits
    refine ⟨_, _, owner, ⟨free, rfl, rfl⟩, kept.meet linked free rfl rfl ?_⟩
    intro n inside
    exact .inl ⟨inside, rfl, rfl⟩
  | send unclosed =>
    obtain ⟨τ, own, turn, said, within, opens⟩ := permitted
    obtain ⟨linked, sent⟩ := kept.linked.say own turn said
    exact ⟨_, _, _, ⟨rfl, rfl⟩, kept.speak own said within opens linked sent⟩
  | @recv rest s len segment arrived =>
    obtain ⟨τ, own, _, short⟩ := permitted
    obtain ⟨rfl, said, sent, linked, settled⟩ := kept.linked.hear own arrived
    have fits := short _ _ said
    have whole : leftover len segment [] = [] := if_pos fits
    rw [whole]
    refine ⟨_, _, _, ⟨τ, own, .inl ⟨_, _, said, ?_, rfl⟩⟩, kept.hear own said sent rfl linked settled⟩
    rw [List.take_of_length_le fits]
    rfl
  | @ended s len empty gone =>
    obtain ⟨τ, own, listens, _⟩ := permitted
    rcases kept.linked.hearEnd own empty gone listens with ⟨said, sent, linked, settled⟩ | hung
    · have same : G.setConn s.conn (G.conns s.conn) = G := by simp [State.setConn]
      rw [← same] at linked
      have heard := kept.hear own said sent rfl linked settled
      rw [same] at heard
      exact ⟨_, _, _, ⟨τ, own, .inl ⟨_, _, said, rfl, rfl⟩⟩, heard⟩
    · refine ⟨g t, L, owner, ⟨τ, own, .inr ⟨hung, rfl, rfl⟩⟩, ?_⟩
      exact kept.unchanged t rfl rfl (fun _ _ => rfl) kept.linked rfl
  | @close s =>
    obtain ⟨τ, own, finished⟩ := permitted
    rcases finished with finished | ⟨turn, said, within⟩
    · refine ⟨g t, L, owner, ⟨τ, own, (if_pos finished).symm⟩, ?_⟩
      refine kept.unchanged t rfl rfl (fun n _ => ?_) (kept.linked.shut own finished) rfl
      by_cases here : n = s.conn
      · subst here
        simp [State.setConn, Conn.shut]
      · simp [State.setConn, here]
    · obtain ⟨linked, sent⟩ := kept.linked.hang own turn said
      refine ⟨_, _, _, ⟨τ, own, (if_neg ?_).symm⟩, kept.speak own said within ?_ linked sent⟩
      · rw [turn]
        rintro ⟨⟩
      · rintro rfl
        cases said
  | @lock l free =>
    by_cases tcp : l = Lock.tcpMutex
    · subst tcp
      obtain ⟨listed, taken⟩ := kept.lock free t
      refine ⟨_, _, _, ?_, taken⟩
      simp only [After, reduceIte]
      exact ⟨_, _, listed, rfl⟩
    · refine ⟨g t, L, owner, ?_, kept.unchanged t rfl ?_ (fun _ _ => rfl) (kept.linked.congr rfl rfl rfl) rfl⟩
      · simp only [After, if_neg tcp]
      · simp [State.setLock, Ne.symm tcp]
  | @unlock l =>
    by_cases tcp : l = Lock.tcpMutex
    · subst tcp
      obtain ⟨r, known, finished⟩ := permitted rfl
      exact ⟨_, _, _, (if_pos rfl).symm, kept.unlock known finished⟩
    · refine ⟨g t, L, owner, (if_neg tcp).symm,
        kept.unchanged t rfl ?_ (fun _ _ => rfl) (kept.linked.congr rfl rfl rfl) rfl⟩
      simp [State.setLock, Ne.symm tcp]
  | act acted =>
    refine ⟨_, L, owner, ⟨G.mem, _, kept.knows t, promised _ rfl, acted, rfl⟩, ?_⟩
    exact kept.act (affects_of_allows permitted acted)

end Kept

/-- The threads follow the protocol from positions in which everything is kept. -/
def Custody (calls : Nat → ClusterCall) (object : Bytes → Server) (G : ClusterState) : Prop :=
  ∃ L owner g, Follows (conduct calls object) (fun _ _ _ => True) g G ∧ Kept object L owner g G

theorem custody_step (custody : Custody calls object G) (promised : Promised calls t G)
    (moved : Step clusterAction t G G₁) : Custody calls object G₁ := by
  obtain ⟨L, owner, g, follows, kept⟩ := custody
  rcases follows.step moved with
    ⟨call, r, G₀, k, plan, at_, permitted, done, rfl, next⟩ | ⟨p, rfl, _, follows₁⟩
  · have made : ∀ op, call = .act op → promise calls G.mem t op := by
      rintro op rfl
      apply promised
      simp [nextOp, at_]
    obtain ⟨s, L₁, owner₁, led, kept₁⟩ := kept.performed permitted made done
    exact ⟨L₁, owner₁, _, next s led, kept₁.setThread t _⟩
  · have same : (conduct calls object t).turn (g t) = g t := rfl
    rw [same, Function.update_eq_self] at follows₁
    exact ⟨L, owner, g, follows₁, kept.setThread t p⟩

theorem custody_run (custody : Custody calls object G)
    (run : ReachesUnder clusterAction (Promised calls) G G₁) : Custody calls object G₁ :=
  run.invariant custody_step custody

end

end DnsServer
