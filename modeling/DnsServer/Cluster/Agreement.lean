import DnsServer.Cluster.Calling
import DnsServer.Cluster.Serving

/-! The rotation stays in step across sessions. -/
namespace DnsServer
open Process Memory

section
variable {calls : Nat → ClusterCall} {dnsId : Nat → UInt8}

/-- Nothing is known yet. -/
def Position.initial : Position := ⟨.none, none, fun _ => none⟩

theorem start_obeys (start : ClusterStart calls dnsId G) :
    Follows (conduct calls G.mem.object) (fun _ _ _ => True) (fun _ => .initial) G := by
  intro t
  rw [start.threads]
  cases t with
  | router => exact checkIpListRequests_conduct (by rintro _ _ ⟨⟩)
  | server p => exact checkHostsRequests_obeys p
  | remover n => exact removeServer_conduct (dnsId n) n
  | caller n =>
    change (calls n).program.Obeys _ _ _
    have valid := start.valid n
    cases call_ : calls n with
    | update port u fail =>
      rw [call_] at valid
      exact updateHosts_obeys port u valid.1 valid.2 fail call_
    | join x =>
      rw [call_] at valid
      exact updateAndOnline_obeys valid call_

theorem start_kept (start : ClusterStart calls dnsId G) (same : InStep G.mem.router.ports G.mem.coms) :
    Kept G.mem.object ⟨fun _ => .asked, fun _ => none⟩ (fun _ => .pool) (fun _ => .initial) G := by
  have unborn : ∀ n, ¬ n < G.next := by
    rw [start.unconnected]
    exact Nat.not_lt_zero
  have idle : ∀ n a, n ∉ G.backlog a := by
    intro n a
    rw [start.idle]
    exact List.not_mem_nil
  constructor
  case linked =>
    refine ⟨by rintro _ _ _ ⟨⟩, fun n old => absurd old (unborn n), fun queued => absurd queued (idle _ _), fun a => ?_,
      fun queued => absurd queued (idle _ _)⟩
    rw [start.idle]
    exact List.nodup_nil
  case cells => rintro _ _ _ ⟨⟩
  case flying => exact fun old => absurd old (unborn _)
  case router => rintro _ _ ⟨⟩
  case session => exact fun old => absurd old (unborn _)
  case pool => exact fun _ => ⟨⟨same, start.apart⟩, fun _ => rfl⟩
  case neat => exact start.neat
  case covered => exact start.sized.covered
  case object => rfl

/-- Whatever the interleaving of updates, joins and removals, the servers in rotation have one
table and one version whenever the router is in no session. -/
theorem rotation_in_step (start : ClusterStart calls dnsId G)
    (same : InStep G.mem.router.ports G.mem.coms)
    (run : ReachesUnder clusterAction (Promised calls) G G₁) (closed : ¬ SessionOpen G₁) :
    InStep G₁.mem.router.ports G₁.mem.coms := by
  have custody : Custody calls G.mem.object G := ⟨_, _, _, start_obeys start, start_kept start same⟩
  obtain ⟨L, owner, g, _, kept⟩ := custody_run custody run
  exact (kept.pool closed).1.toInStep

end

/-! Two servers are in rotation; one issues an update and a third one joins. -/

def joiner : Server := createDnsServer [1, 0, 0, 0, 0, 0, 0, 0] 2 0 3

def updateThenJoin : Nat → ClusterCall
  | 0 => .update 129 (addNewDomain 1) (-2)
  | _ => .join joiner

def pairStart : ClusterState where
  mem := { startMem .roundRobin with
    router := ⟨.roundRobin, [createDnsServer [] 0 0 1, createDnsServer [] 1 0 2], 2, 0⟩
    object := fun _ => joiner }
  locks := fun _ => none
  conns := fun _ => Conn.opened
  next := 0
  backlog := fun _ => []
  threads := clusterThreads updateThenJoin fun _ => 1

theorem pairStart_start : ClusterStart updateThenJoin (fun _ => 1) pairStart := by
  constructor
  case threads => rfl
  case free => exact fun _ => rfl
  case unconnected => rfl
  case idle => exact fun _ => rfl
  case sized => rfl
  case apart =>
    have ports : pairStart.mem.router.ports = [129, 130] := rfl
    rw [ports]
    rintro p (_ | ⟨_, _ | ⟨_, ⟨⟩⟩⟩)
    · rintro ⟨⟩
    · rintro ⟨⟩
  case neat => exact fun p => ⟨by rintro _ ⟨⟩, by rintro _ ⟨⟩, by rintro _ ⟨⟩⟩
  case valid =>
    rintro (_ | n)
    · exact ⟨⟨⟨by decide, by decide, by decide⟩, ⟨by decide, by decide, by decide⟩⟩,
        by simp [addNewDomain, Update.Fits, Update.text, textSize]⟩
    · exact ⟨by decide, by decide, rfl, by decide⟩

theorem silentWorld_cluster (t : ClusterThread) (m : Mem) (op : Op) (r : op.Reply) (m₁ : Mem)
    (performed : m.perform silentWorld op = some (r, m₁)) : clusterAction t m op r m₁ := by
  refine ⟨silentWorld, m₁, performed, ?_⟩
  cases op with
  | insert | erase => exact ⟨_, rfl, (setComs_self _ _).symm⟩
  | _ => rfl

/-- Tables that are sent are small and the joiner is in no rotation. -/
def promising (t : ClusterThread) (G : ClusterState) : Bool :=
  match nextOp t G with
  | some (.ipHash p) => (G.mem.coms p).ipHash.entries.length ≤ 255
  | some (.clear _) => joiner.tcpPortNum ∉ G.mem.router.ports
  | _ => true

theorem promised_of_promising (t : ClusterThread) (G : ClusterState) (checked : promising t G = true) :
    Promised updateThenJoin t G := by
  intro op next
  unfold promising at checked
  rw [show nextOp t G = some op from next] at checked
  cases t with
  | router | remover n => cases op <;> trivial
  | server p =>
    cases op with
    | ipHash p =>
      have few : (G.mem.coms p).ipHash.entries.length ≤ 255 := of_decide_eq_true checked
      exact few
    | _ => trivial
  | caller n =>
    cases n with
    | zero =>
      cases op with
      | versionNum p =>
        intro i port _ named
        have negative : (-2 : Int8).toInt = -2 := by decide
        omega
      | _ => trivial
    | succ n =>
      cases op with
      | clear p =>
        have new : joiner.tcpPortNum ∉ G.mem.router.ports := of_decide_eq_true checked
        exact new
      | _ => trivial

def updateAndJoin : List ClusterThread :=
  let parties : List ClusterThread := [.caller 0, .router, .server ⟨129, by decide⟩, .server ⟨130, by decide⟩,
    .caller 1]
  (List.replicate 80 parties).flatten

theorem rotation_in_step_pair :
    let G := pairStart.follow (Mem.perform silentWorld) updateAndJoin
    ReachesUnder clusterAction (Promised updateThenJoin) pairStart G ∧
      G.mem.router.ports = [129, 130, 131] ∧ (G.mem.coms 131).versionNum = 1 ∧
      InStep G.mem.router.ports G.mem.coms := by
  intro G
  have run : ReachesUnder clusterAction (Promised updateThenJoin) pairStart G :=
    reachesUnder_follow_allows silentWorld_cluster promised_of_promising (by decide +kernel)
  have same : InStep pairStart.mem.router.ports pairStart.mem.coms :=
    ⟨fun _ _ _ _ => rfl, fun _ _ _ _ => rfl⟩
  exact ⟨run, by decide +kernel, by decide +kernel,
    rotation_in_step pairStart_start same run (by unfold SessionOpen; decide +kernel)⟩

end DnsServer
