import DnsServer.Scoreboard.Requests

/-! Which of the answers to a request its row keeps. -/
namespace DnsServer
variable {Time : Type}

/-- The result and the time of an answer with this id. -/
def ScoreboardCall.answerTo (id : UInt16) : ScoreboardCall Time → Option (UInt8 × Time)
  | .generated _ _ _ => none
  | .answered id₁ validTrans elapsedTime => if id₁ = id then some (validTrans, elapsedTime) else none

def firstAnswer (id : UInt16) (calls : List (ScoreboardCall Time)) : Option (UInt8 × Time) :=
  calls.findSome? (ScoreboardCall.answerTo id)

/-- The row of a request with the answer it keeps, if any. -/
def recordedRow [Zero Time] (startTime : Time) (id : UInt16) (dnsId : UInt8) :
    Option (UInt8 × Time) → Results Time
  | none => ⟨startTime, id, dnsId, 0, 0, 0, 0⟩
  | some (validTrans, elapsedTime) => ⟨startTime, id, dnsId, 0, 1, elapsedTime, validTrans⟩

section
variable [Zero Time]

/-- The calls that are made while the row `i` has not been written out. -/
def whileWaiting (s : Scoreboard Time) (i : Nat) : List (ScoreboardCall Time) → List (ScoreboardCall Time)
  | [] => []
  | c :: calls => if s.written.length ≤ i then c :: whileWaiting (c.apply s) i calls else []

/-- In the results file the row of every request has the first answer that came after it was entered and before
it was written out. -/
def RecordsFirst (calls : List (ScoreboardCall Time)) : Prop :=
  ∀ before id dnsId startTime after, calls = before ++ .generated id dnsId startTime :: after →
    let i := (before.filterMap ScoreboardCall.request).length
    let entered := scoreboardAfter (before ++ [.generated id dnsId startTime])
    (destroyScoreboard (scoreboardAfter calls)).written[i]? =
      some (recordedRow startTime id dnsId (firstAnswer id (whileWaiting entered i after)))

/-- Whatever waits for this answer has had none, or the same. -/
def Unrecorded (s : Scoreboard Time) (id : UInt16) (validTrans : UInt8) (elapsedTime : Time) : Prop :=
  ∀ r ∈ s.queue, r.id = id → r.recieved = 0 ∨ r.finishTime = elapsedTime ∧ r.found = validTrans

omit [Zero Time] in
theorem writeAnswered_prefix (written queue : List (Results Time)) :
    written <+: (writeAnswered written queue).written := by
  induction queue generalizing written with
  | nil => exact List.prefix_rfl
  | cons front rest ih =>
    rw [writeAnswered]
    split
    · exact (List.prefix_append written [front]).trans (ih _)
    · exact List.prefix_rfl

/-- What has been written out stays. -/
theorem apply_written (s : Scoreboard Time) (c : ScoreboardCall Time) : s.written <+: (c.apply s).written := by
  cases c with
  | generated id dnsId elapsedTime => exact List.prefix_rfl
  | answered id validTrans elapsedTime => exact writeAnswered_prefix _ _

theorem foldl_written (s : Scoreboard Time) (calls : List (ScoreboardCall Time)) :
    s.written.length ≤ (calls.foldl ScoreboardCall.apply s).written.length := by
  induction calls generalizing s with
  | nil => exact le_rfl
  | cons c calls ih => exact (apply_written s c).length_le.trans (ih _)

/-- A row that waits at the end has waited all along. -/
theorem whileWaiting_all (s : Scoreboard Time) (calls : List (ScoreboardCall Time))
    (waits : (calls.foldl ScoreboardCall.apply s).written.length ≤ i) : whileWaiting s i calls = calls := by
  induction calls generalizing s with
  | nil => rfl
  | cons c calls ih => rw [whileWaiting, if_pos ((foldl_written s (c :: calls)).trans waits), ih _ waits]

theorem whileWaiting_concat (s : Scoreboard Time) (i : Nat) (calls : List (ScoreboardCall Time))
    (c : ScoreboardCall Time) : whileWaiting s i (calls ++ [c]) =
      if (calls.foldl ScoreboardCall.apply s).written.length ≤ i then calls ++ [c] else whileWaiting s i calls := by
  induction calls generalizing s with
  | nil => rfl
  | cons first calls ih =>
    rw [List.cons_append, whileWaiting, ih, whileWaiting, List.foldl_cons]
    by_cases waits : (calls.foldl ScoreboardCall.apply (first.apply s)).written.length ≤ i
    · rw [if_pos waits, if_pos waits, if_pos ((foldl_written s (first :: calls)).trans waits)]
    · rw [if_neg waits, if_neg waits]

omit [Zero Time] in
theorem firstAnswer_concat (id : UInt16) (calls : List (ScoreboardCall Time)) (c : ScoreboardCall Time) :
    firstAnswer id (calls ++ [c]) = (firstAnswer id calls).or (c.answerTo id) := by
  rw [firstAnswer, List.findSome?_append, List.findSome?_singleton]
  rfl

theorem recordedRow_request (startTime : Time) (id : UInt16) (dnsId : UInt8) (kept : Option (UInt8 × Time)) :
    (recordedRow startTime id dnsId kept).request = (startTime, id, dnsId) := by
  cases kept <;> rfl

/-- An answer to a row that keeps its first one is lost on it, or says the same again. -/
theorem recordedRow_answer (startTime : Time) (id : UInt16) (dnsId : UInt8) (kept : Option (UInt8 × Time))
    (id₁ : UInt16) (validTrans : UInt8) (elapsedTime : Time) :
    let r := recordedRow startTime id dnsId kept
    r.answer id₁ validTrans elapsedTime =
        recordedRow startTime id dnsId (kept.or ((ScoreboardCall.answered id₁ validTrans elapsedTime).answerTo id)) ↔
      (r.id = id₁ → r.recieved = 0 ∨ r.finishTime = elapsedTime ∧ r.found = validTrans) := by
  intro r
  have named : r.id = id := congrArg (·.2.1) (recordedRow_request startTime id dnsId kept)
  rw [Results.answer, named, ScoreboardCall.answerTo]
  by_cases mine : id = id₁
  · rw [if_pos mine, if_pos mine.symm]
    cases kept with
    | none => exact iff_of_true rfl fun _ => .inl rfl
    | some first =>
      obtain ⟨found, finishTime⟩ := first
      simp only [r, recordedRow, Option.some_or, Results.mk.injEq, true_and, mine, forall_const]
      constructor
      · rintro ⟨rfl, rfl⟩
        exact .inr ⟨rfl, rfl⟩
      · rintro (unanswered | ⟨rfl, rfl⟩)
        · exact absurd unanswered (by decide)
        · exact ⟨rfl, rfl⟩
  · rw [if_neg mine, if_neg fun same => mine same.symm, Option.or_none]
    exact iff_of_true rfl fun same => absurd same mine

omit [Zero Time] in
theorem occurs_concat {calls before : List (ScoreboardCall Time)} {c entry : ScoreboardCall Time}
    (occurs : calls ++ [c] = before ++ entry :: after₁) :
    (before = calls ∧ entry = c ∧ after₁ = []) ∨ ∃ after, after₁ = after ++ [c] ∧ calls = before ++ entry :: after := by
  rcases List.eq_nil_or_concat after₁ with rfl | ⟨after, c₁, rfl⟩
  · obtain ⟨rfl, same⟩ := List.append_inj' occurs rfl
    cases same
    exact .inl ⟨rfl, rfl, rfl⟩
  · rw [List.concat_eq_append, ← List.cons_append, ← List.append_assoc] at occurs
    obtain ⟨rfl, same⟩ := List.append_inj' occurs rfl
    cases same
    exact .inr ⟨after, List.concat_eq_append, rfl⟩

omit [Zero Time] in
/-- Every row is that of a request. -/
theorem filterMap_occurs (calls : List (ScoreboardCall Time)) (i : Nat) (request : Time × UInt16 × UInt8)
    (at_ : (calls.filterMap ScoreboardCall.request)[i]? = some request) :
    ∃ before after, calls = before ++ .generated request.2.1 request.2.2 request.1 :: after ∧
      (before.filterMap ScoreboardCall.request).length = i := by
  induction calls generalizing i with
  | nil => cases at_
  | cons c calls ih =>
    cases c with
    | generated id dnsId startTime =>
      cases i with
      | zero =>
        cases at_
        exact ⟨[], calls, rfl, rfl⟩
      | succ i =>
        obtain ⟨before, after, rfl, count⟩ := ih i at_
        exact ⟨.generated id dnsId startTime :: before, after, rfl, congrArg Nat.succ count⟩
    | answered id validTrans elapsedTime =>
      obtain ⟨before, after, rfl, count⟩ := ih i at_
      exact ⟨.answered id validTrans elapsedTime :: before, after, rfl, count⟩

/-- The row of a request, and where the scoreboard is after it. -/
theorem row_place (before after : List (ScoreboardCall Time)) (id : UInt16) (dnsId : UInt8) (startTime : Time) :
    let calls := before ++ .generated id dnsId startTime :: after
    after.foldl ScoreboardCall.apply (scoreboardAfter (before ++ [.generated id dnsId startTime])) =
        scoreboardAfter calls ∧
      (before.filterMap ScoreboardCall.request).length < (scoreboardAfter calls).rows.length := by
  intro calls
  constructor
  · simp only [calls, scoreboardAfter, List.foldl_append, List.foldl_cons, List.foldl_nil]
  · have rows := congrArg List.length (rows_requests calls)
    rw [List.length_map] at rows
    simp only [rows, calls, List.filterMap_append, List.filterMap_cons, ScoreboardCall.request, List.length_append,
      List.length_cons]
    omega

theorem recordsFirst_generated {calls : List (ScoreboardCall Time)} (kept : RecordsFirst calls) (id : UInt16)
    (dnsId : UInt8) (startTime : Time) : RecordsFirst (calls ++ [.generated id dnsId startTime]) := by
  intro before id₁ dnsId₁ startTime₁ after₁ occurs i entered
  change (scoreboardAfter _).rows[i]? = _
  have rows : (scoreboardAfter (calls ++ [.generated id dnsId startTime])).rows =
      (scoreboardAfter calls).rows ++ [recordedRow startTime id dnsId none] := by
    rw [scoreboardAfter_concat]
    exact (List.append_assoc _ _ _).symm
  rw [rows]
  rcases occurs_concat occurs with ⟨rfl, same, rfl⟩ | ⟨after, rfl, rfl⟩
  · cases same
    have count : i = (scoreboardAfter before).rows.length := by
      rw [← List.length_map (f := Results.request), rows_requests]
    rw [count, List.getElem?_concat_length]
    rfl
  · obtain ⟨ends_, inside⟩ := row_place before after id₁ dnsId₁ startTime₁
    rw [List.getElem?_append_left inside, whileWaiting_concat]
    refine (kept before id₁ dnsId₁ startTime₁ after rfl).trans ?_
    split
    · next waits =>
      rw [whileWaiting_all _ _ waits, firstAnswer_concat]
      exact congrArg (fun kept => some (recordedRow _ _ _ kept)) (Option.or_none).symm
    · rfl

/-- An answer leaves what is written and goes over what waits. -/
theorem rows_answered (s : Scoreboard Time) (id : UInt16) (validTrans : UInt8) (elapsedTime : Time) (i : Nat) :
    ((ScoreboardCall.answered id validTrans elapsedTime).apply s).rows[i]? =
      if s.written.length ≤ i then s.rows[i]?.map (Results.answer id validTrans elapsedTime) else s.rows[i]? := by
  change (Scoreboard.rows (recieveDnsAnswer s id validTrans elapsedTime).2)[i]? = _
  rw [Scoreboard.rows, recieveDnsAnswer_rows, Scoreboard.rows]
  split
  · next waits => rw [List.getElem?_append_right waits, List.getElem?_append_right waits, List.getElem?_map]
  · next done =>
    have before : i < s.written.length := Nat.lt_of_not_le done
    rw [List.getElem?_append_left before, List.getElem?_append_left before]

/-- The row of a request that waits has its first answer, and keeps it through the next just when it has none or
the same. -/
theorem waiting_row {calls before after : List (ScoreboardCall Time)} (kept : RecordsFirst calls)
    (occurs : calls = before ++ .generated id₁ dnsId startTime :: after) (id : UInt16) (validTrans : UInt8)
    (elapsedTime : Time) :
    let i := (before.filterMap ScoreboardCall.request).length
    let entered := scoreboardAfter (before ++ [.generated id₁ dnsId startTime])
    (scoreboardAfter calls).written.length ≤ i →
      ∃ r, (scoreboardAfter calls).rows[i]? = some r ∧
        ((scoreboardAfter (calls ++ [.answered id validTrans elapsedTime])).rows[i]? =
            some (recordedRow startTime id₁ dnsId
              (firstAnswer id₁ (whileWaiting entered i (after ++ [.answered id validTrans elapsedTime])))) ↔
          (r.id = id → r.recieved = 0 ∨ r.finishTime = elapsedTime ∧ r.found = validTrans)) := by
  intro i entered waits
  have here : (scoreboardAfter calls).rows[i]? =
      some (recordedRow startTime id₁ dnsId (firstAnswer id₁ (whileWaiting entered i after))) :=
    kept before id₁ dnsId startTime after occurs
  subst occurs
  obtain ⟨ends_, inside⟩ := row_place before after id₁ dnsId startTime
  have waited := waits
  rw [← ends_] at waited
  rw [whileWaiting_all _ _ waited] at here
  refine ⟨_, here, ?_⟩
  rw [whileWaiting_concat, if_pos waited, scoreboardAfter_concat, rows_answered, if_pos waits, firstAnswer_concat,
    here, Option.map_some, Option.some_inj]
  exact recordedRow_answer startTime id₁ dnsId (firstAnswer id₁ after) id validTrans elapsedTime

/-- While every row has kept its first answer, the next one is lost on all of them just when none waits that has
another. -/
theorem recordsFirst_answered {calls : List (ScoreboardCall Time)} (kept : RecordsFirst calls) (id : UInt16)
    (validTrans : UInt8) (elapsedTime : Time) : RecordsFirst (calls ++ [.answered id validTrans elapsedTime]) ↔
      Unrecorded (scoreboardAfter calls) id validTrans elapsedTime := by
  constructor
  · intro stays r member
    obtain ⟨j, at_⟩ := List.mem_iff_getElem?.mp member
    have place : (scoreboardAfter calls).rows[(scoreboardAfter calls).written.length + j]? = some r := by
      rw [Scoreboard.rows, List.getElem?_append_right (Nat.le_add_right _ _), Nat.add_sub_cancel_left, at_]
    have asked := congrArg (·[(scoreboardAfter calls).written.length + j]?) (rows_requests calls)
    simp only [List.getElem?_map, place, Option.map_some] at asked
    obtain ⟨before, after, occurs, count⟩ := filterMap_occurs calls _ _ asked.symm
    have waits := Nat.le_add_right (scoreboardAfter calls).written.length j
    rw [← count] at waits place
    obtain ⟨r₁, here, iff_⟩ := waiting_row kept occurs id validTrans elapsedTime waits
    cases place.symm.trans here
    exact iff_.mp (stays before _ _ _ (after ++ [_]) (by rw [occurs, List.append_assoc, List.cons_append]))
  · intro unrecorded before id₁ dnsId startTime after₁ extended i entered
    change (scoreboardAfter _).rows[i]? = _
    rcases occurs_concat extended with ⟨_, same, _⟩ | ⟨after, rfl, occurs⟩
    · cases same
    · by_cases waits : (scoreboardAfter calls).written.length ≤ i
      · obtain ⟨r, here, iff_⟩ := waiting_row kept occurs id validTrans elapsedTime waits
        refine iff_.mpr (unrecorded r ?_)
        rw [Scoreboard.rows, List.getElem?_append_right waits] at here
        exact List.mem_of_getElem? here
      · subst occurs
        obtain ⟨ends_, inside⟩ := row_place before after id₁ dnsId startTime
        rw [scoreboardAfter_concat, rows_answered, if_neg waits, whileWaiting_concat, ends_, if_neg waits]
        exact kept before id₁ dnsId startTime after rfl

/-- In every run the rows have the first answers if and only if no answer comes while a row waits that already has
a different one with its id. -/
theorem records_first_iff (calls : List (ScoreboardCall Time)) :
    (∀ run, run <+: calls → RecordsFirst run) ↔
      ∀ before id validTrans elapsedTime, before ++ [.answered id validTrans elapsedTime] <+: calls →
        Unrecorded (scoreboardAfter before) id validTrans elapsedTime := by
  constructor
  · intro first before id validTrans elapsedTime reached
    have kept := first before ((List.prefix_append before _).trans reached)
    exact (recordsFirst_answered kept id validTrans elapsedTime).mp (first _ reached)
  · intro unrecorded run reached
    induction run using List.reverseRecOn with
    | nil =>
      intro before id dnsId startTime after occurs
      exact absurd (congrArg List.length occurs) (by simp)
    | append_singleton run c ih =>
      have kept := ih ((List.prefix_append run [c]).trans reached)
      cases c with
      | generated id dnsId startTime => exact recordsFirst_generated kept id dnsId startTime
      | answered id validTrans elapsedTime =>
        exact (recordsFirst_answered kept id validTrans elapsedTime).mpr (unrecorded run id validTrans elapsedTime reached)

/-- The second request is answered twice while the first waits, and its row has the second answer. -/
theorem second_answer_recorded : ¬ ∀ run, run <+: [.generated 1 0 1, .generated 2 0 2, .answered 2 1 5, .answered 2 0 9] →
    @RecordsFirst Nat _ run := by
  intro first
  have row := first _ List.prefix_rfl [.generated 1 0 1] 2 0 2 [.answered 2 1 5, .answered 2 0 9] rfl
  revert row
  decide

end
end DnsServer
