import DnsServer.Coms.Table

/-! The texts sent between servers: one update, or one entry of the table. -/
namespace DnsServer
open Memory

/-- The size of the buffers that texts are received in. -/
def textSize : Nat := 128

structure Update where
  remove : Bool
  domain : Bytes
  ip : Bytes
  id : UInt8
  deriving DecidableEq

/-- The effect of an update on a table. -/
def Update.apply (u : Update) (t : Table) : Table :=
  if u.remove then t.erase u.domain else t.insert u.domain u.ip

/-- The bytes of an update, with the terminator that is sent too. -/
def Update.text (u : Update) : Bytes :=
  (if u.remove then 49 else 48) :: space :: (u.domain ++ space :: (u.ip ++ [space, u.id, 0]))

def entryText (domain ip : Bytes) : Bytes := domain ++ space :: (ip ++ [0])

/-- The scan `do ++p while (*p != ' ')`: the bytes from `p` to the space it stops at
and those after it; `none` when it leaves the buffer. -/
def scanSpace : Bytes → Option (Bytes × Bytes)
  | [] => none
  | first :: rest =>
    match rest.dropWhile (· != space) with
    | [] => none
    | _ :: after => some (first :: rest.takeWhile (· != space), after)

/-- `none` when a scan or the read of the id leaves the buffer. -/
def decodeUpdate (buffer : Bytes) : Option Update := do
  let remove ← buffer.head?
  let (_, domain) ← scanSpace buffer
  let (domain, ip) ← scanSpace domain
  let (ip, id) ← scanSpace ip
  let id ← id.head?
  return { remove := remove == 49, domain := cString domain, ip := cString ip, id }

/-- `none` when the scan or the string after it leaves the buffer. -/
def decodeEntry (buffer : Bytes) : Option (Bytes × Bytes) := do
  let (domain, ip) ← scanSpace buffer
  if 0 ∈ ip then return (cString domain, cString ip) else none

/-- The buffer once the space behind the domain is overwritten with a zero. -/
def endDomain (buffer : Bytes) : Bytes :=
  match scanSpace buffer with
  | none => buffer
  | some (domain, ip) => domain ++ 0 :: ip

/-- A name that the texts can carry. -/
structure Clean (text : Bytes) : Prop where
  nonempty : text ≠ []
  noSpace : space ∉ text
  noZero : 0 ∉ text

structure Update.Clean (u : Update) : Prop where
  domain : DnsServer.Clean u.domain
  ip : DnsServer.Clean u.ip

def Update.Fits (u : Update) : Prop := u.text.length ≤ textSize

theorem scanSpace_append (nonempty : text ≠ []) (noSpace : space ∉ text) (rest : Bytes) :
    scanSpace (text ++ space :: rest) = some (text, rest) := by
  cases text with
  | nil => exact absurd rfl nonempty
  | cons first text =>
    obtain ⟨_, noSpace⟩ := not_or.mp (List.mem_cons.not.mp noSpace)
    have all : ∀ b ∈ text, (b != space) = true := by
      intro b member
      have differs : b ≠ space := fun same => noSpace (same ▸ member)
      simpa using differs
    simp only [List.cons_append, scanSpace, List.dropWhile_append_of_pos all,
      List.takeWhile_append_of_pos all]
    simp

theorem entryText_terminated (domain ip : Bytes) :
    entryText domain ip = domain ++ space :: ip ++ [0] := by simp [entryText]

/-- The text of a clean update reads back as it, whatever the buffer held. -/
theorem decodeUpdate_text (u : Update) (clean : u.Clean) (rest : Bytes) :
    decodeUpdate (u.text ++ rest) = some u := by
  have flag : scanSpace (u.text ++ rest) = some ([if u.remove then 49 else 48],
      u.domain ++ space :: (u.ip ++ space :: u.id :: 0 :: rest)) := by
    have text : u.text ++ rest = [if u.remove then 49 else 48] ++
        space :: (u.domain ++ space :: (u.ip ++ space :: u.id :: 0 :: rest)) := by
      simp [Update.text]
    rw [text]
    exact scanSpace_append (by simp) (by cases u.remove <;> decide) _
  have head : (u.text ++ rest).head? = some (if u.remove then 49 else 48) := rfl
  simp only [decodeUpdate, head, flag, Option.bind_eq_bind, Option.bind_some,
    scanSpace_append clean.domain.nonempty clean.domain.noSpace,
    scanSpace_append clean.ip.nonempty clean.ip.noSpace, List.head?_cons,
    cString_of_clean clean.domain.noZero, cString_of_clean clean.ip.noZero, Option.pure_def]
  cases u with
  | mk remove domain ip id => cases remove <;> rfl

theorem Update.text_terminated (u : Update) : ∃ body, u.text = body ++ [0] :=
  ⟨(if u.remove then 49 else 48) :: space :: (u.domain ++ space :: (u.ip ++ [space, u.id])),
    by simp [Update.text]⟩

/-- The text fits its buffer and reads back. -/
def Update.Carried (u : Update) : Prop :=
  u.text.length ≤ textSize ∧ ∀ rest, decodeUpdate (u.text ++ rest) = some u

theorem Update.carried_of_clean (u : Update) (clean : u.Clean) (fits : u.Fits) : u.Carried :=
  ⟨fits, decodeUpdate_text u clean⟩

theorem decodeEntry_text (domain : Clean d) (ip : 0 ∉ a) (rest : Bytes) :
    decodeEntry (entryText d a ++ rest) = some (d, a) := by
  have text : entryText d a ++ rest = d ++ space :: (a ++ 0 :: rest) := by simp [entryText]
  rw [text, decodeEntry, scanSpace_append domain.nonempty domain.noSpace]
  simp [cString_of_clean domain.noZero, cString_append_zero ip]

/-- Entries whose texts fit and read back. -/
structure Neat (entries : List (Sigma fun _ : Bytes => Bytes)) : Prop where
  domain : ∀ entry ∈ entries, Clean entry.1
  ip : ∀ entry ∈ entries, (0 : UInt8) ∉ entry.2
  fits : ∀ entry ∈ entries, (entryText entry.1 entry.2).length ≤ textSize

theorem Neat.only (neat : Neat entries) (member : entry ∈ entries) : Neat [entry] := by
  constructor
  · rintro _ (_ | ⟨_, ⟨⟩⟩)
    exact neat.domain entry member
  · rintro _ (_ | ⟨_, ⟨⟩⟩)
    exact neat.ip entry member
  · rintro _ (_ | ⟨_, ⟨⟩⟩)
    exact neat.fits entry member

theorem Neat.subset (neat : Neat entries) (fewer : entries' ⊆ entries) : Neat entries' :=
  ⟨fun e member => neat.domain e (fewer member), fun e member => neat.ip e (fewer member),
    fun e member => neat.fits e (fewer member)⟩

/-- A table that can be sent: its entries can, and their number fits its byte. -/
structure Sendable (entries : List (Sigma fun _ : Bytes => Bytes)) : Prop extends Neat entries where
  few : entries.length ≤ 255

/-- The update that adds `new_domain` at `6.6.6.6`. -/
def addNewDomain (id : UInt8) : Update where
  remove := false
  domain := [110, 101, 119, 95, 100, 111, 109, 97, 105, 110]
  ip := [54, 46, 54, 46, 54, 46, 54]
  id := id

theorem addNewDomain_clean (id : UInt8) : (addNewDomain id).Clean := by
  refine ⟨⟨?_, ?_, ?_⟩, ?_, ?_, ?_⟩
  all_goals simp [addNewDomain, space]

theorem addNewDomain_fits (id : UInt8) : (addNewDomain id).Fits := by
  simp [addNewDomain, Update.Fits, Update.text, textSize]

theorem addNewDomain_carried (id : UInt8) : (addNewDomain id).Carried :=
  Update.carried_of_clean _ (addNewDomain_clean id) (addNewDomain_fits id)

end DnsServer
