import DnsServer.Dns.Header
import Mathlib.Data.Finmap

/-! The hosts table of one server and the file it is written to. -/
namespace DnsServer
open Memory

/-- A hash table, in the order in which it iterates. -/
abbrev Hash := AList fun _ : Bytes => Bytes

/-- A hash table up to its iteration order. -/
abbrev Table := Finmap fun _ : Bytes => Bytes

/-- The code of the space that separates fields. -/
def space : UInt8 := 32

/-- `hostsFile` is the contents of the server's own hosts file. -/
structure Coms where
  id : UInt8
  ipHash : Hash
  versionNum : UInt8
  hostsFile : Bytes

/-- A server that has read no hosts file. -/
def emptyComs (id : UInt8) : Coms := ⟨id, ∅, 0, []⟩

def hostsText (hash : Hash) : Bytes :=
  hash.entries.flatMap fun ⟨domain, ip⟩ => domain ++ space :: ip ++ [10]

namespace Coms

def table (c : Coms) : Table := c.ipHash.toFinmap

def writeHostsFile (c : Coms) : Coms := { c with hostsFile := hostsText c.ipHash }

end Coms

/-- The address of a domain, or the null pointer. -/
def translateIp (coms : Coms) (domain : Bytes) : Option Bytes := coms.ipHash.lookup (cString domain)

theorem translateIp_isSome (coms : Coms) (domain : Bytes) :
    (translateIp coms domain).isSome ↔ cString domain ∈ coms.table :=
  AList.lookup_isSome

/-- The entries of one table stored one by one in another. -/
def copyEntries (t : Table) (entries : List (Sigma fun _ : Bytes => Bytes)) : Table :=
  entries.foldl (fun t entry => t.insert entry.1 entry.2) t

theorem lookup_copyEntries (t : Table) {entries : List (Sigma fun _ : Bytes => Bytes)}
    (distinct : entries.NodupKeys) (d : Bytes) :
    (copyEntries t entries).lookup d = (entries.dlookup d).or (t.lookup d) := by
  induction entries generalizing t with
  | nil => rfl
  | cons entry entries ih =>
    obtain ⟨key, value⟩ := entry
    obtain ⟨fresh, distinct⟩ := List.nodupKeys_cons.mp distinct
    change (copyEntries (t.insert key value) entries).lookup d = _
    rw [ih _ distinct]
    by_cases same : d = key
    · subst same
      rw [List.dlookup_eq_none.mpr fresh, List.dlookup_cons_eq, Finmap.lookup_insert]
      rfl
    · rw [Finmap.lookup_insert_of_ne _ same, List.dlookup_cons_ne _ _ same]

/-- Copying every entry of a table into an empty one restores it. -/
theorem copyEntries_hash (hash : Hash) : copyEntries ∅ hash.entries = hash.toFinmap := by
  apply Finmap.ext_lookup
  intro d
  rw [lookup_copyEntries ∅ hash.nodupKeys, Finmap.lookup_empty, Option.or_none]
  rfl

end DnsServer
