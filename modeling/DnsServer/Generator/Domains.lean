import DnsServer.Coms.HostsFile
import DnsServer.Generator

/-! The names that the generator asks for: how they are counted, picked and crafted. -/
namespace DnsServer
open Process Program Memory

/-- Copies of the names, up to a NUL, and their count; `none` when the parser aborts. -/
def getDomains (files : Files) (filename : Bytes) : Option (UInt8 × List Bytes) := do
  let translations ← parseHostsFile files filename
  let domains := translations.map fun trans => cString trans.1
  return (UInt8.ofNat translations.length, domains)

/-- `new_domain` -/
def newDomain : Bytes := [110, 101, 119, 95, 100, 111, 109, 97, 105, 110]

/-- What `main` does first: the array gets room for one more name, which is stored in the last place.
There is no last place in an array of none. -/
def mainDomains (files : Files) : Option (UInt8 × List Bytes) := do
  let (domainCnt, domains) ← getDomains files hostsTxt
  let domainCnt := domainCnt + 1
  if domainCnt = 0 then none
  return (domainCnt, domains.take (domainCnt - 1).toNat ++ [newDomain])

/-- A header, the name with its NUL, the type and the class. -/
def encodedLength (domain : Bytes) : Nat := Header.size + ((cString domain).length + 1) + 4

/-- One test: there is a name to pick, its message fits the buffer, whatever that held, and has the length
that is then sent, or crafting has failed and written nothing. -/
structure TestInRange (domains : List Bytes) (domainCnt random : UInt8) (id : UInt16) : Prop where
  divisor : domainCnt ≠ 0
  crafts : ∃ domain k, domains[(random % domainCnt).toNat]? = some domain ∧
    sendSingleTest domains domainCnt random id =
      @Program.call platform.interface _ (.act (.garbage maxDnsBytes)) k ∧
    ∀ buffer, ∃ messageLen written, craftMessage buffer.val true id domain none = some (messageLen, written) ∧
      (messageLen.toNat = encodedLength domain ∨ messageLen = 0 ∧ written = buffer.val) ∧
      k buffer = (forwardRequest (written.take messageLen.toNat)).bind fun answer => .ret answer.2

/-- From a file with `n` entries: the count is that of the array, which has one name more, and every test
is in range. -/
def GeneratorInRange (files : Files) (n : Nat) : Prop :=
  ∃ domainCnt domains, mainDomains files = some (domainCnt, domains) ∧ domainCnt.toNat = n + 1 ∧
    domains.length = n + 1 ∧ ∀ random id, TestInRange domains domainCnt random id

/-- A test that picks a name that the buffer has room for is in range. -/
theorem testInRange_of_short {domains : List Bytes} {domainCnt random : UInt8} (id : UInt16)
    (divisor : domainCnt ≠ 0) (picked : domains[(random % domainCnt).toNat]? = some domain)
    (short : (cString domain).length ≤ 47) : TestInRange domains domainCnt random id := by
  refine ⟨divisor, domain, _, picked, rfl, fun buffer => ?_⟩
  obtain ⟨⟨messageLen, written⟩, crafted⟩ :=
    Option.isSome_iff_exists.mp ((craftMessage_fits_iff buffer.property).mpr short)
  obtain ⟨count, _⟩ := craftMessage_lengths crafted
  have length : messageLen.toNat = encodedLength domain := by
    rw [count, UInt8.toNat_ofNat', encodedLength]
    simp only [Header.size]
    omega
  refine ⟨messageLen, written, crafted, .inl length, ?_⟩
  simp only [pure_eq, bind_eq, if_neg divisor, ret_bind, picked, crafted]

/-- Every name can be picked, so none that is longer is in range. -/
theorem short_of_testInRange {domains : List Bytes} {domainCnt random : UInt8} {id : UInt16}
    (inRange : TestInRange domains domainCnt random id)
    (picked : domains[(random % domainCnt).toNat]? = some domain) : (cString domain).length ≤ 47 := by
  obtain ⟨_, k, picked₁, _, crafts⟩ := inRange.crafts
  obtain rfl := Option.some.inj (picked.symm.trans picked₁)
  obtain ⟨messageLen, written, crafted, _⟩ := crafts (zeros maxDnsBytes)
  exact (craftMessage_fits_iff (zeros maxDnsBytes).property).mp (by rw [crafted]; rfl)

theorem mainDomains_of_few {files : Files} (accepted : parseHostsFile files hostsTxt = some translations)
    (few : translations.length ≤ 254) :
    ∃ domainCnt, domainCnt.toNat = translations.length + 1 ∧
      mainDomains files = some (domainCnt, (translations.map fun trans => cString trans.1) ++ [newDomain]) := by
  have count : (UInt8.ofNat translations.length + 1).toNat = translations.length + 1 := by
    rw [UInt8.toNat_add, UInt8.toNat_ofNat', UInt8.toNat_one]
    omega
  have positive : UInt8.ofNat translations.length + 1 ≠ 0 := by
    intro zero
    rw [zero] at count
    cases count
  have last : (UInt8.ofNat translations.length + 1 - 1).toNat = translations.length := by
    rw [UInt8.add_sub_cancel, UInt8.toNat_ofNat']
    omega
  have all : (translations.map fun trans => cString trans.1).take translations.length =
      translations.map fun trans => cString trans.1 := by
    rw [List.take_of_length_le (by rw [List.length_map])]
  refine ⟨_, count, ?_⟩
  simp only [mainDomains, getDomains, accepted, Option.bind_eq_bind, Option.bind_some, Option.pure_def,
    if_neg positive, last, all]

/-- The count of the names and one more is zero in a byte: the last place would be before the array. -/
theorem mainDomains_eq_none_iff {files : Files} (accepted : parseHostsFile files hostsTxt = some translations) :
    mainDomains files = none ↔ translations.length % 256 = 255 := by
  have zero : UInt8.ofNat translations.length + 1 = 0 ↔ translations.length % 256 = 255 := by
    rw [← UInt8.toNat_inj, UInt8.toNat_add, UInt8.toNat_ofNat', UInt8.toNat_one, UInt8.toNat_zero]
    omega
  rw [← zero]
  simp only [mainDomains, getDomains, accepted, Option.bind_eq_bind, Option.bind_some, Option.pure_def]
  split
  · next wrapped => exact iff_of_true rfl wrapped
  · next positive => exact iff_of_false (Option.some_ne_none _) positive

/-- The generator is in range exactly when the file has at most 254 entries, so that a byte holds one more,
and no name is longer than the buffer has room for. -/
theorem generator_in_range_iff {files : Files} (accepted : parseHostsFile files hostsTxt = some translations) :
    GeneratorInRange files translations.length ↔
      translations.length ≤ 254 ∧ ∀ trans ∈ translations, (cString trans.1).length ≤ 47 := by
  constructor
  · rintro ⟨domainCnt, domains, started, count, _, inRange⟩
    have small := domainCnt.toNat_lt
    have few : translations.length ≤ 254 := by omega
    obtain ⟨domainCnt₁, count₁, started₁⟩ := mainDomains_of_few accepted few
    cases started.symm.trans started₁
    refine ⟨few, fun trans member => ?_⟩
    obtain ⟨i, within, rfl⟩ := List.getElem_of_mem member
    have random : (UInt8.ofNat i % domainCnt).toNat = i := by
      rw [UInt8.toNat_mod, UInt8.toNat_ofNat', count, Nat.mod_eq_of_lt (by omega), Nat.mod_eq_of_lt (by omega)]
    let names := translations.map fun trans => cString trans.1
    have picked : (names ++ [newDomain])[(UInt8.ofNat i % domainCnt).toNat]? = some (cString translations[i].1) := by
      rw [random, List.getElem?_append_left (by rwa [List.length_map]), List.getElem?_map,
        List.getElem?_eq_getElem within, Option.map_some]
    have short := short_of_testInRange (inRange (UInt8.ofNat i) 0) picked
    rwa [cString_cString] at short
  · rintro ⟨few, short⟩
    obtain ⟨domainCnt, count, started⟩ := mainDomains_of_few accepted few
    have divisor : domainCnt ≠ 0 := by
      rintro rfl
      cases count
    let names := translations.map fun trans => cString trans.1
    have size : (names ++ [newDomain]).length = translations.length + 1 := by
      rw [List.length_append, List.length_map, List.length_singleton]
    have shorts : ∀ domain ∈ names ++ [newDomain], (cString domain).length ≤ 47 := by
      rw [List.forall_mem_append, List.forall_mem_map, List.forall_mem_singleton]
      refine ⟨fun trans member => ?_, by decide⟩
      rw [cString_cString]
      exact short trans member
    refine ⟨domainCnt, _, started, count, size, fun random id => ?_⟩
    have within : (random % domainCnt).toNat < translations.length + 1 := by
      rw [UInt8.toNat_mod, count]
      exact Nat.mod_lt _ (Nat.succ_pos _)
    rw [← size] at within
    exact testInRange_of_short id divisor (List.getElem?_eq_getElem within) (shorts _ (List.getElem_mem within))

/-- A file with these lines and nothing else. -/
def filesOf (lines : List Bytes) : Files := fun _ => lines.flatMap (· ++ [10])

/-- `a 1` -/
def entryLine : Bytes := [97, 32, 49]

theorem generator_in_range_one : GeneratorInRange (filesOf [entryLine]) 1 := by
  have accepted : parseHostsFile (filesOf [entryLine]) hostsTxt = some [([97], [49])] := rfl
  exact (generator_in_range_iff accepted).mpr (by decide)

theorem parse_filesOf_replicate (n : Nat) :
    parseHostsFile (filesOf (List.replicate n entryLine)) hostsTxt = some (List.replicate n ([97], [49])) := by
  unfold parseHostsFile parseTranslations filesOf
  induction n with
  | zero => rfl
  | succ n ih =>
    have single : 10 ∉ entryLine := by decide
    have entry : parseLine entryLine = some ([97], [49]) := by decide
    rw [List.replicate_succ, List.flatMap_cons, List.append_assoc, List.singleton_append, getLines_line single,
      List.mapM_cons, entry, ih]
    rfl

/-- With 255 entries the count wraps around to zero, and the last name is written before the array. With a name of
48 bytes the message runs over the end of the buffer. -/
theorem generator_out_of_range :
    (parseHostsFile (filesOf (List.replicate 255 entryLine)) hostsTxt = some (List.replicate 255 ([97], [49])) ∧
      ¬ GeneratorInRange (filesOf (List.replicate 255 entryLine)) 255) ∧
    parseHostsFile (filesOf [List.replicate 48 97 ++ [32, 49]]) hostsTxt = some [(List.replicate 48 97, [49])] ∧
      ¬ GeneratorInRange (filesOf [List.replicate 48 97 ++ [32, 49]]) 1 := by
  refine ⟨⟨parse_filesOf_replicate 255, ?_⟩, by decide, ?_⟩
  · rintro ⟨_, _, started, _⟩
    have outside := (mainDomains_eq_none_iff (parse_filesOf_replicate 255)).mpr (by rw [List.length_replicate])
    cases started.symm.trans outside
  · rintro ⟨domainCnt, domains, started, _, _, inRange⟩
    have picked : domains[(0 % domainCnt).toNat]? = some (List.replicate 48 97) := by
      cases started
      rfl
    have short := short_of_testInRange (inRange 0 0) picked
    revert short
    decide

end DnsServer
