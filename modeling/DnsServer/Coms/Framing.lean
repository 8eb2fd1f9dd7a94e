import DnsServer.Coms.Sequential

/-! A text on a stream that cuts it in pieces. -/
namespace DnsServer
open Process Program

/-- A stream whose receives return the pieces one after the other. -/
def pieces : Handler platform.interface (List Bytes)
  | piece :: rest, .recv _ len => if piece.length ≤ len then some (some piece, rest) else none
  | _, _ => none

/-- The loop for a text returns with the last piece, and the text stands at the start of its buffer. -/
def Reassembles (stopOnClose : Bool) (buffer : Bytes) (cuts : List Bytes) (text : Bytes) : Prop :=
  ∃ buffer₁, Runs pieces (recieveText ⟨0, .client⟩ stopOnClose buffer) cuts (some buffer₁) [] ∧
    buffer₁.take text.length = text

/-- A text has its NUL at the end and at most one more right before that. -/
structure Terminated (text : Bytes) : Prop where
  ends : ∃ name last, text = name ++ [last, 0] ∧ 0 ∉ name ∧ (name = [] → last ≠ 0)

theorem Update.terminated (u : Update) (domain : 0 ∉ u.domain) (ip : 0 ∉ u.ip) : Terminated u.text := by
  refine ⟨(if u.remove then 49 else 48) :: space :: (u.domain ++ space :: (u.ip ++ [space])), u.id, ?_, ?_, by rintro ⟨⟩⟩
  · simp [Update.text]
  · have flag : (0 : UInt8) ≠ if u.remove then 49 else 48 := by
      split <;> decide
    have blank : (0 : UInt8) ≠ space := by decide
    simp [flag, blank, domain, ip]

theorem entryText_terminates (domain : 0 ∉ d) (ip : 0 ∉ a) : Terminated (entryText d a) := by
  have blank : (0 : UInt8) ≠ space := by decide
  rcases List.eq_nil_or_concat a with rfl | ⟨front, last, rfl⟩
  · refine ⟨d, space, by simp [entryText], domain, fun _ => blank.symm⟩
  · rw [List.concat_eq_append] at ip ⊢
    obtain ⟨front', last'⟩ := not_or.mp (List.mem_append.not.mp ip)
    refine ⟨d ++ space :: front, last, by simp [entryText], ?_, fun none => by simp at none⟩
    simp [domain, blank, front']

theorem pieces_fault {k : β → Proc α} : ¬ Runs pieces ((fault : Proc β).bind k) cuts a cuts₁ := by
  intro ran
  obtain ⟨_, _, asked, _⟩ := runs_call_iff.mp ran
  cases cuts <;> cases asked

/-- When the loop has returned with the last piece, that piece is at the start of the buffer. -/
theorem last_piece {cuts : List Bytes}
    (ran : Runs pieces (.loop (buffer, count) (recieveChunk socket stopOnClose) .ret) cuts (some buffer₁) []) :
    ∃ before piece, cuts = before ++ [piece] ∧ piece <+: buffer₁ := by
  induction cuts generalizing buffer count with
  | nil =>
    have turn := runs_loop_iff.mp ran
    simp only [unroll, recieveChunk, recv, request, bind_eq, pure_eq, call_bind, ret_bind, runs_call_iff] at turn
    obtain ⟨_, _, asked, _⟩ := turn
    cases asked
  | cons piece rest ih =>
    have turn := runs_loop_iff.mp ran
    simp only [unroll, recieveChunk, recv, request, bind_eq, pure_eq, call_bind, ret_bind, runs_call_iff] at turn
    obtain ⟨_, _, asked, turn⟩ := turn
    simp only [pieces] at asked
    split at asked
    · cases asked
      simp only at turn
      split at turn
      · cases turn
      · split at turn
        · exact absurd turn pieces_fault
        · split at turn
          · obtain ⟨same, finished⟩ := runs_ret_iff.mp turn
            cases same
            cases finished
            exact ⟨[], piece, rfl, List.prefix_append _ _⟩
          · obtain ⟨before, piece', cut, here⟩ := ih turn
            exact ⟨piece :: before, piece', by rw [cut]; rfl, here⟩
    · cases asked

/-- An end of the text that also begins it is all of it: a shorter one would have a NUL too early. -/
theorem Terminated.whole_of_overlap (terminated : Terminated text) (start : body ++ [0] <+: text)
    (finish : body ++ [0] <:+ text) : body ++ [0] = text := by
  obtain ⟨name, last, rfl, clean, alone⟩ := terminated.ends
  obtain ⟨front, split⟩ := finish
  obtain ⟨rest, covered⟩ := start
  have shifted : front ++ body = name ++ [last] := by
    apply (List.append_left_inj [(0 : UInt8)]).mp
    simpa using split
  have sizes := congrArg List.length shifted
  have sizes' := congrArg List.length covered
  simp only [List.length_append, List.length_cons, List.length_nil] at sizes sizes'
  have early : name[body.length]? ≠ some 0 := fun found => clean (List.mem_of_getElem? found)
  have zero : (name ++ [last, 0])[body.length]? = some 0 := by
    rw [← covered]
    simp
  rcases front with _ | ⟨first, _ | ⟨second, front⟩⟩
  · exact split
  · -- The piece lacks the first byte only, so it is the name with a NUL that follows it.
    simp only [List.length_cons, List.length_nil] at sizes
    have long : body.length = name.length := by omega
    obtain rfl : last = 0 := by simpa [long] using zero
    have moved : first :: body = name ++ [0] := shifted
    cases name with
    | nil => exact absurd rfl (alone rfl)
    | cons b name =>
      have same : body = name ++ [0] := (List.cons.inj moved).2
      rw [same, List.append_assoc (name ++ [0])] at covered
      have again := (List.append_inj covered (by simp)).1
      exact absurd (again ▸ List.mem_append_right name (List.mem_singleton_self 0)) clean
  · simp only [List.length_cons] at sizes
    have inside : body.length < name.length := by omega
    rw [List.getElem?_append_left inside] at zero
    exact absurd zero early

/-- Whatever the buffer held before, a text is put together exactly when it comes in one piece. -/
theorem reassembles_iff (stopOnClose : Bool) (buffer : Bytes) (terminated : Terminated text)
    (fits : text.length ≤ textSize) (whole : cuts.flatten = text) (nonempty : ∀ piece ∈ cuts, piece ≠ []) :
    Reassembles stopOnClose buffer cuts text ↔ cuts.length = 1 := by
  constructor
  · rintro ⟨buffer₁, ran, stands⟩
    obtain ⟨before, piece, rfl, start⟩ := last_piece ran
    have finish : piece <:+ text := by
      rw [← whole]
      exact ⟨before.flatten, by simp⟩
    have begins : piece <+: text := by
      rw [← stands]
      exact List.prefix_take_iff.mpr ⟨start, finish.length_le⟩
    have all : piece = text := by
      rcases List.eq_nil_or_concat piece with none | ⟨body, b, rfl⟩
      · exact absurd none (nonempty piece (by simp))
      rw [List.concat_eq_append] at begins finish ⊢
      obtain ⟨name, last, ends, _⟩ := terminated.ends
      obtain ⟨front, split⟩ := finish
      obtain rfl : b = 0 := by
        rw [ends, show [last, 0] = [last] ++ [0] from rfl, ← List.append_assoc, ← List.append_assoc] at split
        exact List.singleton_inj.mp (List.append_inj_right' split rfl)
      exact terminated.whole_of_overlap begins ⟨front, split⟩
    have none : before.flatten = [] := by simpa [all] using whole
    cases before with
    | nil => rfl
    | cons first before =>
      obtain ⟨empty, _⟩ := List.append_eq_nil_iff.mp none
      exact absurd empty (nonempty first List.mem_cons_self)
  · intro one
    obtain ⟨piece, rfl⟩ := List.length_eq_one_iff.mp one
    obtain rfl : piece = text := by simpa using whole
    obtain ⟨name, last, rfl, _⟩ := terminated.ends
    have cut : name ++ [last, 0] = name ++ [last] ++ [0] := by simp
    rw [cut] at fits ⊢
    refine ⟨_, runs_recieveText (name ++ [last]) buffer ?_, ?_⟩
    · exact if_pos fits
    · rw [List.take_left]

theorem reassembles_new_domain :
    Reassembles true (List.replicate textSize 7) [(addNewDomain 1).text] (addNewDomain 1).text ↔
      [(addNewDomain 1).text].length = 1 :=
  reassembles_iff true _ ((addNewDomain 1).terminated (by decide) (by decide))
    (addNewDomain_carried 1).1 (by simp) (by simp [Update.text])

/-- Of `a b` in two pieces only the second is left. -/
theorem second_piece_overwrites :
    ¬ Reassembles false (List.replicate textSize 0) [[97, space], [98, 0]] (entryText [97] [98]) := by
  rintro ⟨buffer₁, ran, stands⟩
  obtain ⟨before, piece, cut, rest, rfl⟩ := last_piece ran
  have last : piece = [98, 0] := by
    have ends := congrArg List.getLast? cut
    simpa using ends.symm
  rw [last] at stands
  cases stands

end DnsServer
