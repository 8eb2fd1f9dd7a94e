import DnsServer.Cli
import DnsServer.Coms.Table

/-! The hosts files: their names, the parser that reads one line by line and the table that is filled from it. -/
namespace DnsServer
open Memory

/-- The lines that `std::getline` reads one after the other; a last one without a newline counts. -/
def getLines : Bytes → List Bytes
  | [] => []
  | b :: infile =>
    if b = 10 then [] :: getLines infile
    else
      match getLines infile with
      | [] => [[b]]
      | line :: lines => (b :: line) :: lines

/-- `iss >> word`: the word behind the blanks and what follows it; `none` where it fails. -/
def extractWord (iss : Bytes) : Option (Bytes × Bytes) :=
  match iss.dropWhile isSpace with
  | [] => none
  | b :: rest => some ((b :: rest).takeWhile (!isSpace ·), (b :: rest).dropWhile (!isSpace ·))

def parseLine (line : Bytes) : Option (Bytes × Bytes) := do
  let (domain, iss) ← extractWord line
  let (ip, _) ← extractWord iss
  return (domain, ip)

/-- The loop over the lines; `none` when it aborts. -/
def parseTranslations (infile : Bytes) : Option (List (Bytes × Bytes)) := (getLines infile).mapM parseLine

/-- The contents of the files by their names; a file that is missing reads like an empty one. -/
abbrev Files := Bytes → Bytes

def hosts : Bytes := [104, 111, 115, 116, 115]

def txt : Bytes := [46, 116, 120, 116]

/-- `hosts.txt` -/
def hostsTxt : Bytes := hosts ++ txt

def decimal (n : Nat) : Bytes := (Nat.toDigits 10 n).map fun digit => UInt8.ofNat digit.toNat

/-- The server's own hosts file. -/
def hostsFilename (id : UInt8) : Bytes := hosts ++ decimal id.toNat ++ txt

/-- The file it opens is `hosts.txt`, whatever it is asked for. -/
def parseHostsFile (files : Files) (_filename : Bytes) : Option (List (Bytes × Bytes)) :=
  parseTranslations (files hostsTxt)

def loadHosts (translations : List (Bytes × Bytes)) : Hash :=
  translations.foldl (fun hash trans => hash.insert trans.1 trans.2) ∅

/-- `none` when the parser aborts. -/
def createComs (id : UInt8) (readHosts : Bool) (files : Files) : Option Coms := do
  let translations ← if readHosts then parseHostsFile files hostsTxt else some []
  return { emptyComs id with ipHash := loadHosts translations, hostsFile := files (hostsFilename id) }

/-- A name that can stand in a hosts file. -/
structure Plain (text : Bytes) : Prop where
  nonempty : text ≠ []
  noBlank : ∀ b ∈ text, isSpace b = false

theorem getLines_line {line : Bytes} (single : 10 ∉ line) (rest : Bytes) :
    getLines (line ++ 10 :: rest) = line :: getLines rest := by
  induction line with
  | nil => rfl
  | cons b line ih =>
    obtain ⟨other, single⟩ := not_or.mp (List.mem_cons.not.mp single)
    rw [List.cons_append, getLines, if_neg (Ne.symm other), ih single]

theorem extractWord_blank (blank : isSpace b = true) (iss : Bytes) : extractWord (b :: iss) = extractWord iss := by
  rw [extractWord, List.dropWhile_cons_of_pos blank, ← extractWord.eq_def]

/-- A word is read up to the blank behind it. -/
theorem extractWord_plain {word : Bytes} (plain : Plain word) (ends : ∀ b ∈ rest.head?, isSpace b = true) :
    extractWord (word ++ rest) = some (word, rest) := by
  obtain ⟨nonempty, noBlank⟩ := plain
  cases word with
  | nil => exact absurd rfl nonempty
  | cons b word =>
    have word_ : ∀ c ∈ b :: word, (!isSpace c) = true := by
      intro c member
      rw [noBlank c member]
      rfl
    have starts : (b :: (word ++ rest)).dropWhile isSpace = b :: (word ++ rest) :=
      List.dropWhile_cons_of_neg (by simp [noBlank b List.mem_cons_self])
    have behind : rest.takeWhile (!isSpace ·) = [] ∧ rest.dropWhile (!isSpace ·) = rest := by
      cases rest with
      | nil => exact ⟨rfl, rfl⟩
      | cons c rest => simp [ends c rfl]
    rw [extractWord, List.cons_append, starts]
    simp only
    rw [← List.cons_append, List.takeWhile_append_of_pos word_, List.dropWhile_append_of_pos word_, behind.1, behind.2,
      List.append_nil]

theorem parseLine_entry (domain : Plain d) (ip : Plain a) : parseLine (d ++ space :: a) = some (d, a) := by
  have second : extractWord a = some (a, []) := by
    have alone := @extractWord_plain [] a ip (by rintro _ ⟨⟩)
    rwa [List.append_nil] at alone
  have first : extractWord (d ++ space :: a) = some (d, space :: a) := by
    refine extractWord_plain domain ?_
    rintro _ ⟨⟩
    decide
  have blank : isSpace space = true := by decide
  rw [parseLine, first]
  simp only [Option.bind_eq_bind, Option.bind_some, extractWord_blank blank, second, Option.pure_def]

/-- Every name of the entries can stand in a hosts file. -/
def AllPlain (entries : List (Sigma fun _ : Bytes => Bytes)) : Prop :=
  ∀ entry ∈ entries, Plain entry.1 ∧ Plain entry.2

/-- What has been parsed are the pairs of the table, each of them once. -/
def Lists (parsed : Option (List (Bytes × Bytes))) (t : Table) : Prop :=
  ∃ translations, parsed = some translations ∧ ∀ d a, translations.count (d, a) = if t.lookup d = some a then 1 else 0

/-- Pairs with a hash table's keys and values, in its order. -/
def pairs (entries : List (Sigma fun _ : Bytes => Bytes)) : List (Bytes × Bytes) :=
  entries.map fun entry => (entry.1, entry.2)

/-- What is written of the entries reads back as their pairs, one line for each. -/
theorem parseTranslations_hostsText {hash : Hash} (plain : AllPlain hash.entries) :
    parseTranslations (hostsText hash) = some (pairs hash.entries) := by
  unfold parseTranslations hostsText
  generalize hash.entries = entries at plain ⊢
  induction entries with
  | nil => rfl
  | cons entry entries ih =>
    obtain ⟨⟨domain, ip⟩, plain⟩ := List.forall_mem_cons.mp plain
    have single : 10 ∉ entry.1 ++ space :: entry.2 := by
      intro member
      rcases List.mem_append.mp member with member | member
      · cases domain.noBlank 10 member
      · rcases List.mem_cons.mp member with same | member
        · cases same
        · cases ip.noBlank 10 member
    rw [List.flatMap_cons, List.append_assoc, List.singleton_append, getLines_line single, List.mapM_cons,
      parseLine_entry domain ip, ih plain]
    rfl

theorem loadHosts_pairs (entries : List (Sigma fun _ : Bytes => Bytes)) :
    (loadHosts (pairs entries)).toFinmap = copyEntries ∅ entries := by
  have loads : ∀ hash : Hash, ((pairs entries).foldl (fun hash trans => hash.insert trans.1 trans.2) hash).toFinmap =
      copyEntries hash.toFinmap entries := by
    induction entries with
    | nil => exact fun _ => rfl
    | cons entry entries ih =>
      intro hash
      refine (ih (hash.insert entry.1 entry.2)).trans ?_
      rw [← Finmap.insert_toFinmap]
      rfl
  exact loads ∅

theorem mem_pairs {hash : Hash} : (d, a) ∈ pairs hash.entries ↔ hash.lookup d = some a := by
  rw [← Option.mem_def, AList.mem_lookup_iff, pairs, List.mem_map]
  constructor
  · rintro ⟨entry, member, same⟩
    cases same
    exact member
  · exact fun member => ⟨⟨d, a⟩, member, rfl⟩

theorem pairs_nodup (hash : Hash) : (pairs hash.entries).Nodup := by
  refine hash.nodupKeys.nodup.map ?_
  rintro ⟨d, a⟩ ⟨d₁, a₁⟩ same
  cases same
  rfl

theorem hostsText_lists {hash : Hash} (plain : AllPlain hash.entries) :
    Lists (parseTranslations (hostsText hash)) hash.toFinmap := by
  refine ⟨_, parseTranslations_hostsText plain, fun d a => ?_⟩
  split
  · next present => exact List.count_eq_one_of_mem (pairs_nodup hash) (mem_pairs.mpr present)
  · next absent => exact List.count_eq_zero_of_not_mem (mem_pairs.not.mpr absent)

/-- In whatever order the table is written, its text is parsed without aborting, to each of its pairs once and to
no other, and a server that reads it starts with the table. -/
theorem hosts_file_restores (hash : Hash) (plain : AllPlain hash.entries) :
    Lists (parseTranslations (hostsText hash)) hash.toFinmap ∧
      ∀ id files, ∃ coms, createComs id true (Function.update files hostsTxt (hostsText hash)) = some coms ∧
        coms.table = hash.toFinmap := by
  refine ⟨hostsText_lists plain, fun id files => ?_⟩
  let written := Function.update files hostsTxt (hostsText hash)
  refine ⟨{ emptyComs id with
    ipHash := loadHosts (pairs hash.entries), hostsFile := written (hostsFilename id) }, ?_, ?_⟩
  · rw [createComs, if_pos rfl, parseHostsFile, Function.update_self, parseTranslations_hostsText plain]
    rfl
  · exact (loadHosts_pairs hash.entries).trans (copyEntries_hash hash)

/-- `a` at `1` and `bc` at `23`. -/
def twoHosts : Hash := AList.insert [97] [49] (AList.insert [98, 99] [50, 51] ∅)

theorem twoHosts_plain : AllPlain twoHosts.entries := by
  intro entry member
  have either : entry ∈ [⟨[97], [49]⟩, ⟨[98, 99], [50, 51]⟩] := member
  rcases List.mem_cons.mp either with rfl | either
  · exact ⟨⟨by simp, by simp [isSpace]⟩, ⟨by simp, by simp [isSpace]⟩⟩
  · obtain rfl := List.mem_singleton.mp either
    exact ⟨⟨by simp, by simp [isSpace]⟩, ⟨by simp, by simp [isSpace]⟩⟩

theorem hosts_file_restores_two :
    Lists (parseTranslations (hostsText twoHosts)) twoHosts.toFinmap ∧
      ∀ id files, ∃ coms, createComs id true (Function.update files hostsTxt (hostsText twoHosts)) = some coms ∧
        coms.table = twoHosts.toFinmap :=
  hosts_file_restores twoHosts twoHosts_plain

/-- The last line needs no newline, and one without an address aborts. -/
example : parseTranslations [97, 32, 49, 10, 98, 9, 50] = some [([97], [49]), ([98], [50])] ∧
    parseTranslations [97, 10] = none := by decide

end DnsServer
