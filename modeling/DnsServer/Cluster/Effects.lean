import DnsServer.Cluster.Talk
import DnsServer.Coms.Sequential

/-! What an operation that the cluster's protocol allows does to the memory. -/
namespace DnsServer
open Process

/-- Memories that differ where the position allows it only. -/
structure Affects (s : Position) (t : ClusterThread) (m m₁ : Mem) : Prop where
  coms : s.cells p = none → m₁.coms p = m.coms p
  neat : (∀ p, Neat (m.coms p).ipHash.entries) → ∀ p, Neat (m₁.coms p).ipHash.entries
  router : m₁.router = m.router ∨ s.router.isSome ∧ (m.router.Covered → m₁.router.Covered ∧
    (t = .router ∧ s.Idle ∨ t ≠ .router ∧ m₁.router.ports ⊆ m.router.ports))
  object : m₁.object = m.object

theorem affects_refl (s : Position) (t : ClusterThread) (m : Mem) : Affects s t m m :=
  ⟨fun _ => rfl, fun neat => neat, .inl rfl, rfl⟩

theorem affects_coms {s : Position} {m : Mem} (held : (s.cells p).isSome) (c : Coms)
    (neat : Neat (m.coms p).ipHash.entries → Neat c.ipHash.entries) : Affects s t m (m.setComs p c) := by
  refine ⟨?_, ?_, .inl rfl, rfl⟩
  · intro q free
    apply setComs_other
    rintro rfl
    rw [free] at held
    cases held
  · intro all q
    by_cases same : q = p
    · subst same
      rw [setComs_same]
      exact neat (all q)
    · rw [setComs_other m same]
      exact all q

theorem neat_rehash {hash hash' : Hash} (same : hash'.toFinmap = hash.toFinmap)
    (neat : Neat hash.entries) : Neat hash'.entries :=
  neat.subset (AList.toFinmap_eq.mp same).subset

theorem Neat.append (neat : Neat entries) (neat' : Neat entries') : Neat (entries ++ entries') :=
  ⟨List.forall_mem_append.mpr ⟨neat.domain, neat'.domain⟩,
    List.forall_mem_append.mpr ⟨neat.ip, neat'.ip⟩, List.forall_mem_append.mpr ⟨neat.fits, neat'.fits⟩⟩

theorem neat_insert {hash : Hash} (neat : Neat hash.entries) (entry : Neat [⟨d, ip⟩]) :
    Neat (hash.insert d ip).entries := by
  rw [AList.entries_insert]
  exact entry.append (neat.subset (List.kerase_sublist _ _).subset)

theorem affects_of_allows {s : Position} {m m₁ : Mem} (allowed : s.Allows t op)
    (acted : clusterAction t m op r m₁) : Affects s t m m₁ := by
  obtain ⟨world, m', performed, rehashed⟩ := acted
  cases op with
  | versionNum p | ipHash p | router | object pointer =>
    cases performed
    cases rehashed
    exact affects_refl s t m
  | garbage n =>
    obtain ⟨_, _, done⟩ := Option.map_eq_some_iff.mp performed
    cases done
    cases rehashed
    exact affects_refl s t m
  | fault => cases performed
  | setVersionNum p id | writeHostsFile p =>
    cases performed
    cases rehashed
    exact affects_coms allowed _ fun neat => neat
  | clear p =>
    cases performed
    cases rehashed
    refine affects_coms allowed _ fun neat => neat.subset (List.nil_subset _)
  | erase p domain =>
    cases performed
    obtain ⟨hash, same, rfl⟩ := rehashed
    rw [setComs_setComs]
    refine affects_coms allowed _ fun neat => neat_rehash same ?_
    rw [setComs_same]
    exact neat.subset (List.kerase_sublist _ _).subset
  | insert p domain ip =>
    cases performed
    obtain ⟨hash, same, rfl⟩ := rehashed
    rw [setComs_setComs]
    refine affects_coms allowed.1 _ fun neat => neat_rehash same ?_
    rw [setComs_same]
    exact neat_insert neat allowed.2
  | addServer dns =>
    obtain ⟨router, added, done⟩ := Option.map_eq_some_iff.mp performed
    cases done
    cases rehashed
    obtain ⟨thread, known, idle⟩ := allowed
    refine ⟨fun _ => rfl, fun neat => neat, .inr ⟨known, fun covered => ?_⟩, rfl⟩
    exact ⟨(addServer_spec covered dns added).1.covered, .inl ⟨thread, idle⟩⟩
  | shiftOut dnsId =>
    obtain ⟨⟨deleted, router⟩, shifted, done⟩ := Option.map_eq_some_iff.mp performed
    cases done
    cases rehashed
    refine ⟨fun _ => rfl, fun neat => neat, .inr ⟨allowed.2, fun covered => ?_⟩, rfl⟩
    obtain ⟨_, _, same, _, _, rotation, covered₁, _⟩ := shiftOut_spec covered dnsId
    cases same.symm.trans shifted
    refine ⟨covered₁, .inr ⟨allowed.1, ?_⟩⟩
    change router.rotation.map _ ⊆ _
    rw [rotation]
    exact (List.eraseP_sublist.map _).subset
  | shrinkServers =>
    cases performed
    cases rehashed
    refine ⟨fun _ => rfl, fun neat => neat, .inr ⟨allowed.2, fun covered => ?_⟩, rfl⟩
    obtain ⟨sized, rotation⟩ := shrinkServers_spec covered
    refine ⟨sized.covered, .inr ⟨allowed.1, ?_⟩⟩
    change m.router.shrinkServers.rotation.map _ ⊆ _
    rw [rotation]
    exact List.Subset.refl _
  | setCurrServer | sendPacket | recvfrom => exact allowed.elim

end DnsServer
