import DnsServer.Generator.Startup
import DnsServer.Router.Fairness

/-! The servers of a test take its requests in turn, as long as none joins the rotation or leaves it. -/
namespace DnsServer
open Process Program Relation Memory
variable {Time : Type}

/-- The requests have gone to the servers of the router one after the other, from its turn on. -/
structure InTurn (router : Router) (e : Bench Time) : Prop where
  turn : ∃ currServer, e.mem.router = { router with currServer } ∧
    currServer.toNat % router.serverCnt.toNat =
      (router.currServer.toNat + e.sent.length) % router.serverCnt.toNat
  served : e.sent.map (fun s => some s.server) =
    (turns router.serverCnt.toNat router.currServer.toNat e.sent.length).map (router.servers[·]?)

section
variable {all : Server → Prop} {changes : Mem → Mem → Prop} {domains : List Bytes} {domainCnt : UInt8}
  {router : Router} {e e₁ : Bench Time}

theorem inTurn_same (inTurn : InTurn router e) (same : e₁.mem.router = e.mem.router) (sent : e₁.sent = e.sent) :
    InTurn router e₁ := by
  constructor
  · rw [same, sent]
    exact inTurn.turn
  · rw [sent]
    exact inTurn.served

/-- A request goes to the server whose turn it is. -/
theorem inTurn_send (mode : router.mode = .roundRobin) (inTurn : InTurn router e) (idle : e.sending = none)
    {id : UInt16} (requested : Requested domain id e.mem e.queries dnsId mem queries server) :
    InTurn router { e with script, sending := some (⟨id, domain, server⟩, dnsId, requestTime), mem, queries } := by
  obtain ⟨currServer, here, turn⟩ := inTurn.turn
  obtain ⟨chosenServer, nextServer, choice, found, rfl⟩ := requested.turned
  rw [here] at choice found
  change chooseServer router.mode currServer router.serverCnt = _ at choice
  change router.servers[chosenServer.toNat]? = _ at found
  rw [mode, chooseServer] at choice
  split at choice
  · cases choice
  next online =>
  have positive := toNat_ne_zero online
  have bound := router.serverCnt.toNat_lt
  cases choice
  have before : e.sent = e.entered := by
    rw [Bench.sent, idle]
    exact List.append_nil _
  have after : Bench.sent { e with
      script, sending := some (⟨id, domain, server⟩, dnsId, requestTime), queries
      mem := { e.mem with router := { e.mem.router with
        currServer := UInt8.ofNat ((1 + currServer.toNat) % router.serverCnt.toNat) } } } =
      e.sent ++ [⟨id, domain, server⟩] := by
    rw [before]
    rfl
  constructor
  · refine ⟨UInt8.ofNat ((1 + currServer.toNat) % router.serverCnt.toNat), ?_, ?_⟩
    · change ({ e.mem.router with currServer := _ } : Router) = _
      rw [here]
    · have less := Nat.mod_lt (1 + currServer.toNat) positive
      have byte : (UInt8.ofNat ((1 + currServer.toNat) % router.serverCnt.toNat)).toNat =
          (1 + currServer.toNat) % router.serverCnt.toNat := by
        rw [UInt8.toNat_ofNat']
        exact Nat.mod_eq_of_lt (by omega)
      rw [byte, after, List.length_append, List.length_singleton, Nat.mod_mod, Nat.add_comm 1, ← Nat.mod_add_mod, turn,
        Nat.mod_add_mod, Nat.add_assoc]
  · rw [UInt8.toNat_mod, turn] at found
    rw [after, List.map_append, inTurn.served, List.length_append, List.length_singleton, turns_append, turns_one,
      List.map_append, List.map_singleton, List.map_singleton, found]

theorem inTurn_step [Zero Time] (mode : router.mode = .roundRobin) (inTurn : InTurn router e)
    (step : BenchStep all changes domains domainCnt e e₁) (leaves : LeavesRouter e e₁) : InTurn router e₁ := by
  cases step with
  | send script idle ran picked next =>
    obtain ⟨domain, server, picked₁, requested⟩ := sendSingleTest_requests ran
    cases picked.symm.trans picked₁
    cases next.symm.trans requested.next
    exact inTurn_send mode inTurn idle requested
  | enter sending =>
    refine inTurn_same inTurn rfl ?_
    rw [Bench.sent, Bench.sent, sending]
    exact List.append_nil _
  | change => exact inTurn_same inTurn rfl rfl
  | reroute =>
    rcases leaves with same | ⟨id, rest, script, left⟩
    · exact inTurn_same inTurn same rfl
    · exact absurd (script.symm.trans left) (List.cons_ne_self _ _)
  | update => exact inTurn_same inTurn rfl rfl
  | answer => exact inTurn_same inTurn rfl rfl
  | score => exact inTurn_same inTurn rfl rfl

theorem inTurn_run [Zero Time] (mode : router.mode = .roundRobin) (inTurn : InTurn router e)
    (run : ReflTransGen (fun e e₁ => BenchStep all changes domains domainCnt e e₁ ∧ LeavesRouter e e₁) e e₁) :
    InTurn router e₁ := by
  induction run with
  | refl => exact inTurn
  | tail _ step ih => exact inTurn_step mode ih step.1 step.2

/-- So have those that are entered. -/
theorem InTurn.entered (inTurn : InTurn router e) : e.entered.map (fun s => some s.server) =
    (turns router.serverCnt.toNat router.currServer.toNat e.entered.length).map (router.servers[·]?) := by
  have first := congrArg (List.take e.entered.length) inTurn.served
  rw [Bench.sent, List.length_append, ← List.map_take, ← List.map_take, take_turns, List.take_left] at first
  exact first

end

theorem addDnsServer_turn (sized : m.router.Sized) (ran : Runs (alone error) (addDnsServer dns) m code m₁) :
    m₁.router.mode = m.router.mode ∧ m₁.router.currServer = m.router.currServer := by
  simp only [addDnsServer, lock, unlock, act, Program.request, bind_eq, pure_eq, call_bind, ret_bind,
    runs_call_iff, runs_ret_iff, alone, Mem.perform, Option.map_eq_some_iff] at ran
  obtain ⟨_, _, locked, _, _, ⟨router, added, done⟩, _, _, unlocked, _, rfl⟩ := ran
  cases locked
  cases done
  cases unlocked
  obtain ⟨_, _, mode, currServer, _⟩ := addServer_spec sized.covered dns added
  exact ⟨mode, currServer⟩

theorem createServers_turn (sized : m.router.Sized) (ran : Runs (alone error) (createServers address i n) m u m₁) :
    m₁.router.mode = m.router.mode ∧ m₁.router.currServer = m.router.currServer := by
  induction n generalizing m i with
  | zero =>
    obtain ⟨_, rfl⟩ := runs_ret_iff.mp ran
    exact ⟨rfl, rfl⟩
  | succ n ih =>
    obtain ⟨_, _, first, rest⟩ := Runs.split ran
    obtain ⟨mode, currServer⟩ := addDnsServer_turn sized first
    obtain ⟨mode₁, currServer₁⟩ := ih (addDnsServer_spec sized first).1 rest
    exact ⟨mode₁.trans mode, currServer₁.trans currServer⟩

theorem map_eq_of_forall₂ {R : α → β → Prop} {f : α → γ} {g : β → γ} {a : List α} {b : List β}
    (related : List.Forall₂ R a b) (same : ∀ x y, R x y → f x = g y) : a.map f = b.map g := by
  induction related with
  | nil => rfl
  | cons here _ ih => rw [List.map_cons, List.map_cons, same _ _ here, ih]

theorem createdServer_id (address : Nat → Bytes) (small : i < 256) : (createdServer address i).id.toNat = i := by
  rw [createdServer, createDnsServer, UInt16.toNat_ofNat']
  omega

/-- The router that a test begins with. -/
theorem createGenerator_router (address : Nat → Bytes)
    (created : Runs (alone error) (createGenerator address arguments) (startMem .roundRobin) () m) :
    m.router.mode = .roundRobin ∧ m.router.currServer = 0 ∧
      m.router.serverCnt.toNat = arguments.startingServerCnt.toNat := by
  have begun := createRouter_sized .roundRobin
  have sized := createServers_sized begun created
  obtain ⟨mode, currServer⟩ := createServers_turn begun created
  have length := congrArg List.length (createGenerator_servers address created)
  rw [sized, List.length_map, List.length_range] at length
  exact ⟨mode, currServer, length⟩

/-- The numbers of servers that have been taken in turn. -/
theorem turns_numbers {served : List Server} {n : Nat} (few : n ≤ 255)
    (took : served.map some = (turns n 0 k).map (((List.range n).map (createdServer address))[·]?)) :
    (served.map fun server => some (server.id.toNat : Int)) = (turns n 0 k).map fun i : Nat => some (i : Int) := by
  have ids := congrArg (List.map (Option.map fun server : Server => (server.id.toNat : Int))) took
  rw [List.map_map, List.map_map] at ids
  refine ids.trans (List.map_congr_left fun i member => ?_)
  have there := List.mem_map_of_mem (f := (((List.range n).map (createdServer address))[·]?)) member
  rw [← took] at there
  obtain ⟨server, _, found⟩ := List.mem_map.mp there
  have created := found.symm
  rw [List.getElem?_map, Option.map_eq_some_iff] at created
  obtain ⟨j, here, made⟩ := created
  obtain ⟨range, same⟩ := List.getElem?_eq_some_iff.mp here
  rw [List.getElem_range] at same
  subst same
  rw [List.length_range] at range
  change Option.map _ ((List.range n).map (createdServer address))[i]? = _
  rw [← found, Option.map_some, ← made, createdServer_id address (by omega)]

/-- As long as no server joins the rotation or leaves it, the servers of the command line come in turn in the
results file, so that none has two lines more than another. -/
theorem undisturbed_test_turns [Zero Time] {e e₁ : Bench Time} (showTime : Time → Bytes)
    (plain : ∀ t, Field (showTime t)) (accepted : parseCli options = some (0, arguments)) (address : Nat → Bytes)
    (created : Runs (alone error) (createGenerator address arguments) (startMem .roundRobin) () m)
    (start : BenchStart (fun _ => True) arguments e) (begins : e.mem.router = m.router)
    (run : ReflTransGen (fun e e₁ =>
      BenchStep (Created address arguments) changes domains domainCnt e e₁ ∧ LeavesRouter e e₁) e e₁) :
    let lines := getLines (resultsText showTime [] (destroyScoreboard e₁.handler.scoreboard).written)
    let column := lines.map fun line => (line.splitOn comma)[2]?.map atoi
    let n := arguments.startingServerCnt.toNat
    column = (turns n 0 column.length).map (fun i : Nat => some (i : Int)) ∧
      ∀ i j : Nat, i < n → j < n → column.count (some (i : Int)) ≤ column.count (some (j : Int)) + 1 := by
  intro lines column n
  have few := serverTotal_le accepted
  obtain ⟨mode, first, count⟩ := createGenerator_router address created
  have inTurn : InTurn m.router e := by
    have none : e.sent = [] := by
      rw [Bench.sent, start.entered, start.sending]
      rfl
    rw [← begins]
    exact ⟨⟨e.mem.router.currServer, rfl, by rw [none]; rfl⟩, by rw [none]; rfl⟩
  have took := (inTurn_run mode inTurn run).entered
  rw [count, first, createGenerator_servers address created, ← Function.comp_def, ← List.map_map] at took
  obtain ⟨told, _⟩ := test_lines showTime plain few
    (test_sound accepted address created start begins (ReflTransGen.mono (fun _ _ step => step.1) _ _ run))
  have numbers : column = e₁.entered.map fun s => some (s.server.id.toNat : Int) := by
    rw [← map_eq_of_forall₂ told (f := fun fields => fields[2]?.map atoi) ?_, List.map_map]
    · rfl
    · intro fields s line
      obtain ⟨i, range, made, number⟩ := line.server
      rw [number, made, createdServer_id address (by omega)]
  have turned : column = (turns n 0 e₁.entered.length).map fun i : Nat => some (i : Int) := by
    have small : n ≤ 255 := Nat.le_of_lt_succ arguments.startingServerCnt.toNat_lt
    rw [numbers, ← turns_numbers small took, List.map_map]
    rfl
  have length : column.length = e₁.entered.length := by
    rw [turned, List.length_map, length_turns]
  rw [length]
  refine ⟨turned, fun i j party other => ?_⟩
  have injective : Function.Injective fun i : Nat => some (i : Int) :=
    fun i j same => Int.ofNat.inj (Option.some.inj same)
  rw [turned, List.count_map_of_injective _ _ injective, List.count_map_of_injective _ _ injective]
  exact count_turns_le _ _ party other

def pairTest : Arguments := ⟨some [120], 2, true, false, false, false⟩

def pairServer (i : Nat) : Server := createdServer (fun _ => []) i

/-- The beginning of a test of two servers. -/
def pairBench : Bench Nat := { loneBench fun _ => emptyComs 0 with
  script := runTest pairTest
  mem := { startMem .roundRobin with router := ⟨.roundRobin, [pairServer 0, pairServer 1], 2, 0⟩ } }

/-- Of two servers the one whose turn it is has the next request. -/
theorem pair_request (all : Server → Prop) (changes : Mem → Mem → Prop) (turn : UInt8) (server : Server) {e : Bench Nat}
    {id : UInt16}
    (script : e.script = .sendSingleTest id :: rest) (idle : e.sending = none)
    (router : e.mem.router = ⟨.roundRobin, [pairServer 0, pairServer 1], 2, turn⟩)
    (found : [pairServer 0, pairServer 1][(turn % 2).toNat]? = some server) : ∃ e₁ : Bench Nat,
    ReflTransGen (fun e e₁ => BenchStep all changes [[110]] 1 e e₁ ∧ LeavesRouter e e₁) e e₁ ∧
      e₁.script = rest ∧ e₁.sending = none ∧ e₁.entered = e.entered ++ [⟨id, [110], server⟩] ∧
      e₁.mem.router = ⟨.roundRobin, [pairServer 0, pairServer 1], 2, UInt8.ofNat ((1 + turn.toNat) % 2)⟩ := by
  have mode : e.mem.router.mode = .roundRobin := by rw [router]
  have online : e.mem.router.serverCnt ≠ 0 := by
    rw [router]
    exact show (2 : UInt8) ≠ 0 by decide
  have next : e.mem.router.servers[(e.mem.router.currServer % e.mem.router.serverCnt).toNat]? = some server := by
    rw [router]
    exact found
  refine ⟨_, request_run all changes e server script idle mode online next, rfl, rfl, rfl, ?_⟩
  simp only [router]
  rfl

/-- Three requests of a test of two servers have been entered. -/
theorem undisturbed_test_turns_three : ∃ e₁ : Bench Nat,
    e₁.entered = [⟨0, [110], pairServer 0⟩, ⟨1, [110], pairServer 1⟩, ⟨2, [110], pairServer 0⟩] ∧
    let lines := getLines (resultsText decimal [] (destroyScoreboard e₁.handler.scoreboard).written)
    let column := lines.map fun line => (line.splitOn comma)[2]?.map atoi
    let n := pairTest.startingServerCnt.toNat
    column = (turns n 0 column.length).map (fun i : Nat => some (i : Int)) ∧
      ∀ i j : Nat, i < n → j < n → column.count (some (i : Int)) ≤ column.count (some (j : Int)) + 1 := by
  have accepted : parseCli [.d, .t [120], .c [50]] = some (0, pairTest) := by decide
  have start : BenchStart (fun _ => True) pairTest pairBench :=
    ⟨rfl, rfl, rfl, fun _ _ => trivial, rfl, rfl, rfl, rfl, rfl⟩
  have created : Runs (alone 0) (createGenerator (fun _ => []) pairTest) (startMem .roundRobin) () pairBench.mem :=
    runs_of_run (show run (alone 0) 30 (createGenerator (fun _ => []) pairTest) (startMem .roundRobin) =
      some ((), pairBench.mem) from rfl)
  obtain ⟨rest, script⟩ := disable_requests (show pairTest.randomlyDisable = true from rfl) (k := 3) (by decide)
  obtain ⟨e₁, first, script₁, idle₁, entered₁, router₁⟩ := pair_request (Created (fun _ => []) pairTest)
    (fun _ _ => True) 0 (pairServer 0) (e := pairBench) script rfl rfl rfl
  obtain ⟨e₂, second, script₂, idle₂, entered₂, router₂⟩ := pair_request (Created (fun _ => []) pairTest)
    (fun _ _ => True) 1 (pairServer 1) script₁ idle₁ router₁ rfl
  obtain ⟨e₃, third, _, _, entered₃, _⟩ := pair_request (Created (fun _ => []) pairTest)
    (fun _ _ => True) 0 (pairServer 0) script₂ idle₂ router₂ rfl
  refine ⟨e₃, ?_, undisturbed_test_turns decimal decimal_field accepted (fun _ => []) created start rfl
    ((first.trans second).trans third)⟩
  rw [entered₃, entered₂, entered₁]
  rfl

end DnsServer
