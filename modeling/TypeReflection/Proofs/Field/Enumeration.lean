import Mathlib.Data.List.Forall2
import TypeReflection.Field.Enumeration
import TypeReflection.Proofs.Reading

/-! # Fields from both ends

An enumeration hands out every record of a descriptor once, the first of those that are left from
the front and the last from the back. Going back to a place that was remembered is as if nothing had
been done since.
-/

namespace TypeReflection

namespace FieldDescriptor

/-- The record with this number is declared, and can be read. -/
def IsRecord (descriptor : FieldDescriptor) (memory : Memory) (index : Nat)
    (record : FieldRecord) : Prop :=
  descriptor.record? memory index = .ok (some record)

/-- The descriptor declares `count` records, and all of them can be read. -/
structure Declares (descriptor : FieldDescriptor) (memory : Memory) (count : Nat) : Prop where
  counted : descriptor.fieldCount memory = .ok count
  readable : ∀ index < count, ∃ record, descriptor.readRecord memory index = .ok record

namespace Declares

variable {descriptor : FieldDescriptor} {memory : Memory} {count index length : Nat}

theorem record?_of_lt (declares : descriptor.Declares memory count) (declared : index < count) :
    descriptor.record? memory index = some <$> descriptor.readRecord memory index := by
  rw [record?, declares.counted]
  exact if_pos declared

theorem record?_of_le (declares : descriptor.Declares memory count) (past : count ≤ index) :
    descriptor.record? memory index = .ok none := by
  rw [record?, declares.counted]
  exact if_neg (Nat.not_lt.mpr past)

theorem exists_record (declares : descriptor.Declares memory count) (declared : index < count) :
    ∃ record, descriptor.readRecord memory index = .ok record ∧
      descriptor.IsRecord memory index record := by
  obtain ⟨record, given⟩ := declares.readable index declared
  refine ⟨record, given, ?_⟩
  rw [IsRecord, declares.record?_of_lt declared, given]
  rfl

theorem record?_eq_none_iff (declares : descriptor.Declares memory count) :
    descriptor.record? memory index = .ok none ↔ count ≤ index := by
  constructor
  · intro absent
    by_contra declared
    obtain ⟨record, -, present⟩ := declares.exists_record (Nat.not_le.mp declared)
    rw [IsRecord, absent] at present
    cases present
  · exact declares.record?_of_le

theorem readRecords_eq (declares : descriptor.Declares memory count)
    (fits : index + length ≤ count) :
    ∃ records, descriptor.readRecords memory index length = .ok records ∧
      List.Forall₂ (descriptor.IsRecord memory) (List.range' index length) records := by
  induction length generalizing index with
  | zero => exact ⟨[], rfl, .nil⟩
  | succ length ih =>
      obtain ⟨first, read, isFirst⟩ := declares.exists_record (show index < count by omega)
      obtain ⟨rest, readRest, areRest⟩ := ih (show index + 1 + length ≤ count by omega)
      refine ⟨first :: rest, ?_, .cons isFirst areRest⟩
      rw [readRecords, read]
      exact congrArg (· >>= fun rest => pure (first :: rest)) readRest

theorem readRecordsBack_eq (declares : descriptor.Declares memory count)
    (fits : index + length ≤ count) :
    ∃ records, descriptor.readRecordsBack memory index length = .ok records ∧
      List.Forall₂ (descriptor.IsRecord memory) (List.range' index length).reverse records := by
  induction length with
  | zero => exact ⟨[], rfl, .nil⟩
  | succ length ih =>
      obtain ⟨last, read, isLast⟩ := declares.exists_record (show index + length < count by omega)
      obtain ⟨rest, readRest, areRest⟩ := ih (by omega)
      refine ⟨last :: rest, ?_, ?_⟩
      · rw [readRecordsBack, read]
        exact congrArg (· >>= fun rest => pure (last :: rest)) readRest
      · rw [List.range'_concat, List.reverse_concat, Nat.one_mul]
        exact .cons isLast areRest

end Declares

end FieldDescriptor

/-! ## What is left -/

namespace FieldCursor

/-- The numbers of the records that are left, in order. -/
def remaining (cursor : FieldCursor) : List Nat :=
  List.range' cursor.front (cursor.back - cursor.front)

/-- The cursor goes over some of the `count` records of the descriptor. -/
structure IsWithin (cursor : FieldCursor) (descriptor : FieldDescriptor) (count : Nat) : Prop where
  descriptor_eq : cursor.descriptor = descriptor
  front_le_back : cursor.front ≤ cursor.back
  back_le : cursor.back ≤ count

variable {cursor : FieldCursor} {descriptor : FieldDescriptor} {memory : Memory} {count index : Nat}
  {rest : List Nat}

theorem length_remaining (cursor : FieldCursor) :
    cursor.remaining.length = cursor.back - cursor.front :=
  List.length_range'

theorem remaining_of_lt (left : cursor.front < cursor.back) :
    cursor.remaining = cursor.front :: remaining { cursor with front := cursor.front + 1 } := by
  have size : cursor.back - cursor.front = cursor.back - (cursor.front + 1) + 1 := by omega
  rw [remaining, size, List.range'_succ]
  rfl

theorem remaining_back_of_lt (left : cursor.front < cursor.back) :
    cursor.remaining = remaining { cursor with back := cursor.back - 1 } ++ [cursor.back - 1] := by
  have size : cursor.back - cursor.front = cursor.back - 1 - cursor.front + 1 := by omega
  have last : cursor.front + 1 * (cursor.back - 1 - cursor.front) = cursor.back - 1 := by omega
  rw [remaining, size, List.range'_concat, last]
  rfl

theorem all_eq (declares : descriptor.Declares memory count) :
    all descriptor memory = .ok ⟨descriptor, 0, count⟩ := by
  rw [all, declares.counted]
  rfl

theorem remaining_all : remaining ⟨descriptor, 0, count⟩ = List.range count :=
  List.range_eq_range'.symm

namespace IsWithin

theorem all : IsWithin ⟨descriptor, 0, count⟩ descriptor count :=
  ⟨rfl, Nat.zero_le _, Nat.le_refl _⟩

theorem ended_or_left (within : cursor.IsWithin descriptor count) :
    cursor.front = cursor.back ∨ cursor.front < cursor.back :=
  Nat.eq_or_lt_of_le within.front_le_back

theorem remaining_eq_nil_iff (within : cursor.IsWithin descriptor count) :
    cursor.remaining = [] ↔ cursor.front = cursor.back := by
  have ordered := within.front_le_back
  rw [← List.length_eq_zero_iff, length_remaining]
  omega

theorem left_of_mem (within : cursor.IsWithin descriptor count)
    (member : index ∈ cursor.remaining) : cursor.front < cursor.back := by
  rcases within.ended_or_left with ended | left
  · simp [within.remaining_eq_nil_iff.mpr ended] at member
  · exact left

end IsWithin

theorem next_of_ended (ended : cursor.front = cursor.back) : cursor.next memory = .ok none :=
  if_pos ended

theorem nextBack_of_ended (ended : cursor.front = cursor.back) :
    cursor.nextBack memory = .ok none :=
  if_pos ended

/-- Taking from the front. -/
theorem IsWithin.next_of_lt (within : cursor.IsWithin descriptor count)
    (declares : descriptor.Declares memory count) (left : cursor.front < cursor.back) :
    ∃ record, descriptor.IsRecord memory cursor.front record ∧
      cursor.next memory = .ok (some (record, { cursor with front := cursor.front + 1 })) := by
  have declared : cursor.front < count := Nat.lt_of_lt_of_le left within.back_le
  obtain ⟨record, read, isRecord⟩ := declares.exists_record declared
  refine ⟨record, isRecord, ?_⟩
  rw [next, if_neg (Nat.ne_of_lt left), within.descriptor_eq, read]
  rfl

/-- Taking from the back. -/
theorem IsWithin.nextBack_of_lt (within : cursor.IsWithin descriptor count)
    (declares : descriptor.Declares memory count) (left : cursor.front < cursor.back) :
    ∃ record, descriptor.IsRecord memory (cursor.back - 1) record ∧
      cursor.nextBack memory = .ok (some (record, { cursor with back := cursor.back - 1 })) := by
  have declared : cursor.back - 1 < count := by
    have bound := within.back_le
    omega
  obtain ⟨record, read, isRecord⟩ := declares.exists_record declared
  refine ⟨record, isRecord, ?_⟩
  rw [nextBack, if_neg (Nat.ne_of_lt left), within.descriptor_eq, read]
  rfl

theorem IsWithin.advance (within : cursor.IsWithin descriptor count)
    (left : cursor.front < cursor.back) :
    IsWithin { cursor with front := cursor.front + 1 } descriptor count :=
  ⟨within.descriptor_eq, left, within.back_le⟩

theorem IsWithin.retreat (within : cursor.IsWithin descriptor count)
    (left : cursor.front < cursor.back) :
    IsWithin { cursor with back := cursor.back - 1 } descriptor count :=
  ⟨within.descriptor_eq, Nat.le_sub_one_of_lt left, Nat.le_trans (Nat.sub_le _ _) within.back_le⟩

theorem IsWithin.toList_eq (within : cursor.IsWithin descriptor count)
    (declares : descriptor.Declares memory count) :
    ∃ records, cursor.toList memory = .ok records ∧
      List.Forall₂ (descriptor.IsRecord memory) cursor.remaining records := by
  have fits : cursor.front + cursor.size ≤ count := by
    have ordered := within.front_le_back
    have bound := within.back_le
    unfold size
    omega
  rw [toList, within.descriptor_eq]
  exact declares.readRecords_eq fits

theorem IsWithin.toListBack_eq (within : cursor.IsWithin descriptor count)
    (declares : descriptor.Declares memory count) :
    ∃ records, cursor.toListBack memory = .ok records ∧
      List.Forall₂ (descriptor.IsRecord memory) cursor.remaining.reverse records := by
  have fits : cursor.front + cursor.size ≤ count := by
    have ordered := within.front_le_back
    have bound := within.back_le
    unfold size
    omega
  rw [toListBack, within.descriptor_eq]
  exact declares.readRecordsBack_eq fits

end FieldCursor

namespace Enumeration

/-- The enumeration after steps in order, up to the first that fails. -/
def after (enumeration : Enumeration) (memory : Memory) : List EnumerationStep → Enumeration
  | [] => enumeration
  | first :: rest =>
    match enumeration.step memory first with
    | .error _ => enumeration
    | .ok (_, next) => next.after memory rest

/-- Steps with what they give. -/
def trace (enumeration : Enumeration) (memory : Memory) (steps : List EnumerationStep) :
    List (EnumerationStep × Except Fault EnumerationAnswer) :=
  steps.zip (enumeration.run memory steps)

/-- The records that steps of one kind took, in the order in which they were taken. -/
def handed (kind : EnumerationStep)
    (trace : List (EnumerationStep × Except Fault EnumerationAnswer)) : List FieldRecord :=
  trace.filterMap fun
    | (step, .ok (.record record)) => if step = kind then record else none
    | _ => none

/-- The enumerations that steps lead to. A place that one of them remembers may be gone back to in
    any other, so any number of places may be kept at a time. -/
inductive Reached (memory : Memory) (fresh : FieldCursor) : Enumeration → Prop where
  | fresh : Reached memory fresh (.ofCursor fresh)
  | step {enumeration next : Enumeration} {step : EnumerationStep} {answer : EnumerationAnswer}
      (before : Reached memory fresh enumeration)
      (given : enumeration.step memory step = .ok (answer, next)) : Reached memory fresh next
  | revisit {enumeration other : Enumeration} (here : Reached memory fresh enumeration)
      (there : Reached memory fresh other) :
      Reached memory fresh ⟨enumeration.cursor, other.saved⟩

/-- Both places are among the `count` records of the descriptor. -/
structure IsWithin (enumeration : Enumeration) (descriptor : FieldDescriptor) (count : Nat) :
    Prop where
  cursor : enumeration.cursor.IsWithin descriptor count
  saved : enumeration.saved.IsWithin descriptor count

/-- Of the records with the numbers `before`, steps took those with the numbers `forward` from the
    front and those with the numbers `backward` from the back, and left the others. -/
structure Takes (descriptor : FieldDescriptor) (memory : Memory)
    (trace : List (EnumerationStep × Except Fault EnumerationAnswer))
    (before left forward backward : List Nat) : Prop where
  split : before = forward ++ left ++ backward.reverse
  front : List.Forall₂ (descriptor.IsRecord memory) forward (handed .next trace)
  back : List.Forall₂ (descriptor.IsRecord memory) backward (handed .nextBack trace)

variable {descriptor : FieldDescriptor} {memory : Memory} {count : Nat}
  {enumeration later : Enumeration} {step first : EnumerationStep} {answer : EnumerationAnswer}
  {steps rest : List EnumerationStep}

theorem handed_cons (kind : EnumerationStep)
    (entry : EnumerationStep × Except Fault EnumerationAnswer)
    (trace : List (EnumerationStep × Except Fault EnumerationAnswer)) :
    handed kind (entry :: trace) = handed kind [entry] ++ handed kind trace := by
  rw [handed, ← List.singleton_append, List.filterMap_append]
  rfl

namespace Takes

variable {entry : EnumerationStep × Except Fault EnumerationAnswer}
  {trace : List (EnumerationStep × Except Fault EnumerationAnswer)} {record : FieldRecord}
  {before middle left forward backward forward' backward' : List Nat} {index : Nat}

theorem nil (before : List Nat) : Takes descriptor memory [] before before [] [] where
  split := by simp
  front := .nil
  back := .nil

/-- What a step and the steps after it took adds up. -/
theorem cons (first : Takes descriptor memory [entry] before middle forward backward)
    (rest : Takes descriptor memory trace middle left forward' backward') :
    Takes descriptor memory (entry :: trace) before left (forward ++ forward')
      (backward ++ backward') where
  split := by simp [first.split, rest.split]
  front := by
    rw [handed_cons]
    exact List.rel_append first.front rest.front
  back := by
    rw [handed_cons]
    exact List.rel_append first.back rest.back

theorem next (isRecord : descriptor.IsRecord memory index record) :
    Takes descriptor memory [(.next, .ok (.record (some record)))] (index :: left) left
      [index] [] where
  split := by simp
  front := .cons isRecord .nil
  back := .nil

theorem nextBack (isRecord : descriptor.IsRecord memory index record) :
    Takes descriptor memory [(.nextBack, .ok (.record (some record)))] (left ++ [index]) left
      [] [index] where
  split := by simp
  front := .nil
  back := .cons isRecord .nil

/-- A step that gives no record took none. -/
theorem nothing (silent : ∀ record, answer ≠ .record (some record)) :
    Takes descriptor memory [(step, .ok answer)] before before [] [] where
  split := by simp
  front := by
    cases answer with
    | record given => cases given <;> simp_all [handed]
    | _ => exact .nil
  back := by
    cases answer with
    | record given => cases given <;> simp_all [handed]
    | _ => exact .nil

/-- No record was taken twice. -/
theorem nodup (takes : Takes descriptor memory trace before left forward backward)
    (distinct : before.Nodup) : (forward ++ backward).Nodup := by
  rw [takes.split] at distinct
  have apart : (forward ++ backward.reverse).Nodup := by
    refine distinct.sublist ?_
    exact List.Sublist.append (List.sublist_append_left ..) (List.Sublist.refl _)
  exact ((List.Perm.refl _).append backward.reverse_perm).nodup apart

theorem ascending (takes : Takes descriptor memory trace before left forward backward)
    (ordered : before.Pairwise (· < ·)) : forward.Pairwise (· < ·) := by
  rw [takes.split, List.append_assoc] at ordered
  exact (List.pairwise_append.mp ordered).1

theorem descending (takes : Takes descriptor memory trace before left forward backward)
    (ordered : before.Pairwise (· < ·)) : backward.Pairwise (· > ·) := by
  rw [takes.split] at ordered
  exact List.pairwise_reverse.mp (List.pairwise_append.mp ordered).2.1

end Takes

/-! ## One step -/

/-- The step went well: both places are still among the records, and unless it went back it took
    what it gave from one of the ends. -/
structure Advances (descriptor : FieldDescriptor) (memory : Memory) (count : Nat)
    (enumeration : Enumeration) (step : EnumerationStep) (answer : EnumerationAnswer)
    (later : Enumeration) : Prop where
  given : enumeration.step memory step = .ok (answer, later)
  within : later.IsWithin descriptor count
  takes : step ≠ .restore → ∃ forward backward, Takes descriptor memory [(step, .ok answer)]
    enumeration.cursor.remaining later.cursor.remaining forward backward

namespace IsWithin

theorem next_nil (within : enumeration.IsWithin descriptor count)
    (ended : enumeration.cursor.remaining = []) :
    enumeration.step memory .next = .ok (.record none, enumeration) := by
  have met := within.cursor.remaining_eq_nil_iff.mp ended
  rw [Enumeration.step, FieldCursor.next_of_ended met]
  rfl

theorem nextBack_nil (within : enumeration.IsWithin descriptor count)
    (ended : enumeration.cursor.remaining = []) :
    enumeration.step memory .nextBack = .ok (.record none, enumeration) := by
  have met := within.cursor.remaining_eq_nil_iff.mp ended
  rw [Enumeration.step, FieldCursor.nextBack_of_ended met]
  rfl

/-- The first record left is taken, and just that one. -/
theorem next_cons (within : enumeration.IsWithin descriptor count)
    (declares : descriptor.Declares memory count) {index : Nat} {others : List Nat}
    (left : enumeration.cursor.remaining = index :: others) :
    ∃ record cursor, descriptor.IsRecord memory index record ∧
      enumeration.step memory .next =
        .ok (.record (some record), { enumeration with cursor }) ∧
      cursor.IsWithin descriptor count ∧ cursor.remaining = others := by
  have nonempty := within.cursor.left_of_mem (left ▸ List.mem_cons_self)
  obtain ⟨record, isRecord, taken⟩ := within.cursor.next_of_lt declares nonempty
  rw [FieldCursor.remaining_of_lt nonempty] at left
  obtain ⟨rfl, rfl⟩ := List.cons.inj left
  refine ⟨record, _, isRecord, ?_, within.cursor.advance nonempty, rfl⟩
  rw [Enumeration.step, taken]
  rfl

/-- The last record left is taken, and just that one. -/
theorem nextBack_concat (within : enumeration.IsWithin descriptor count)
    (declares : descriptor.Declares memory count) {index : Nat} {others : List Nat}
    (left : enumeration.cursor.remaining = others ++ [index]) :
    ∃ record cursor, descriptor.IsRecord memory index record ∧
      enumeration.step memory .nextBack =
        .ok (.record (some record), { enumeration with cursor }) ∧
      cursor.IsWithin descriptor count ∧ cursor.remaining = others := by
  have member : index ∈ enumeration.cursor.remaining := by simp [left]
  have nonempty := within.cursor.left_of_mem member
  obtain ⟨record, isRecord, taken⟩ := within.cursor.nextBack_of_lt declares nonempty
  rw [FieldCursor.remaining_back_of_lt nonempty] at left
  obtain ⟨rfl, rfl⟩ := List.append_singleton_inj.mp left
  refine ⟨record, _, isRecord, ?_, within.cursor.retreat nonempty, rfl⟩
  rw [Enumeration.step, taken]
  rfl

theorem toList_eq (within : enumeration.IsWithin descriptor count)
    (declares : descriptor.Declares memory count) :
    ∃ records, enumeration.step memory .toList = .ok (.records records, enumeration) ∧
      List.Forall₂ (descriptor.IsRecord memory) enumeration.cursor.remaining records := by
  obtain ⟨records, read, areRecords⟩ := within.cursor.toList_eq declares
  refine ⟨records, ?_, areRecords⟩
  rw [Enumeration.step, read]
  rfl

theorem toListBack_eq (within : enumeration.IsWithin descriptor count)
    (declares : descriptor.Declares memory count) :
    ∃ records, enumeration.step memory .toListBack = .ok (.records records, enumeration) ∧
      List.Forall₂ (descriptor.IsRecord memory) enumeration.cursor.remaining.reverse records := by
  obtain ⟨records, read, areRecords⟩ := within.cursor.toListBack_eq declares
  refine ⟨records, ?_, areRecords⟩
  rw [Enumeration.step, read]
  rfl

/-- A step that leaves the cursor where it was and gives no record. -/
theorem advances_silent (within : later.IsWithin descriptor count)
    (given : enumeration.step memory step = .ok (answer, later))
    (silent : ∀ record, answer ≠ .record (some record))
    (still : later.cursor = enumeration.cursor) :
    Advances descriptor memory count enumeration step answer later where
  given := given
  within := within
  takes _ := ⟨[], [], still ▸ .nothing silent⟩

/-- Every step goes well. -/
theorem advances (within : enumeration.IsWithin descriptor count)
    (declares : descriptor.Declares memory count) (step : EnumerationStep) :
    ∃ answer later, Advances descriptor memory count enumeration step answer later := by
  cases step with
  | next =>
    cases left : enumeration.cursor.remaining with
    | nil => exact ⟨_, _, advances_silent within (within.next_nil left) nofun rfl⟩
    | cons index others =>
      obtain ⟨record, cursor, isRecord, given, still, rest⟩ := within.next_cons declares left
      refine ⟨_, _, given, ⟨still, within.saved⟩, fun _ => ⟨[index], [], ?_⟩⟩
      rw [left, rest]
      exact .next isRecord
  | nextBack =>
    rcases enumeration.cursor.remaining.eq_nil_or_concat' with ended | ⟨others, index, left⟩
    · exact ⟨_, _, advances_silent within (within.nextBack_nil ended) nofun rfl⟩
    · obtain ⟨record, cursor, isRecord, given, still, rest⟩ := within.nextBack_concat declares left
      refine ⟨_, _, given, ⟨still, within.saved⟩, fun _ => ⟨[], [index], ?_⟩⟩
      rw [left, rest]
      exact .nextBack isRecord
  | size => exact ⟨.size _, _, advances_silent within rfl nofun rfl⟩
  | save =>
    have remembered : IsWithin ⟨enumeration.cursor, enumeration.cursor⟩ descriptor count :=
      ⟨within.cursor, within.cursor⟩
    exact ⟨.done, _, advances_silent remembered rfl nofun rfl⟩
  | restore => exact ⟨.done, _, rfl, ⟨within.saved, within.saved⟩, fun other => absurd rfl other⟩
  | toList =>
    obtain ⟨records, given, -⟩ := within.toList_eq declares
    exact ⟨_, _, advances_silent within given nofun rfl⟩
  | toListBack =>
    obtain ⟨records, given, -⟩ := within.toListBack_eq declares
    exact ⟨_, _, advances_silent within given nofun rfl⟩

end IsWithin

/-! ## Steps in order -/

theorem run_cons (given : enumeration.step memory first = .ok (answer, later)) :
    enumeration.run memory (first :: rest) = .ok answer :: later.run memory rest := by
  rw [run, given]

theorem after_cons (given : enumeration.step memory first = .ok (answer, later)) :
    enumeration.after memory (first :: rest) = later.after memory rest := by
  rw [after, given]

theorem trace_cons (given : enumeration.step memory first = .ok (answer, later)) :
    enumeration.trace memory (first :: rest) = (first, .ok answer) :: later.trace memory rest := by
  rw [trace, run_cons given]
  rfl

theorem Reached.isWithin (declares : descriptor.Declares memory count)
    (reached : Reached memory ⟨descriptor, 0, count⟩ enumeration) :
    enumeration.IsWithin descriptor count := by
  induction reached with
  | fresh => exact ⟨.all, .all⟩
  | @step enumeration next step answer before given ih =>
    obtain ⟨answer', later, advances⟩ := ih.advances declares step
    obtain ⟨-, rfl⟩ := Prod.mk.inj (Except.ok.inj (given.symm.trans advances.given))
    exact advances.within
  | revisit here there ihHere ihThere => exact ⟨ihHere.cursor, ihThere.saved⟩

namespace IsWithin

/-- Steps in order all go well. -/
theorem run_eq (within : enumeration.IsWithin descriptor count)
    (declares : descriptor.Declares memory count) (steps : List EnumerationStep) :
    ∃ answers : List EnumerationAnswer, answers.length = steps.length ∧
      enumeration.run memory steps = answers.map .ok ∧
      (enumeration.after memory steps).IsWithin descriptor count := by
  induction steps generalizing enumeration with
  | nil => exact ⟨[], rfl, rfl, within⟩
  | cons first rest ih =>
    obtain ⟨answer, later, advances⟩ := within.advances declares first
    obtain ⟨answers, sameLength, ran, ended⟩ := ih advances.within
    refine ⟨answer :: answers, congrArg (· + 1) sameLength, ?_, ?_⟩
    · rw [run_cons advances.given, ran, List.map_cons]
    · rwa [after_cons advances.given]

/-- What steps took and what they left adds up to what there was, unless they went back. -/
theorem takes (within : enumeration.IsWithin descriptor count)
    (declares : descriptor.Declares memory count) (onward : .restore ∉ steps) :
    ∃ forward backward, Takes descriptor memory (enumeration.trace memory steps)
      enumeration.cursor.remaining (enumeration.after memory steps).cursor.remaining
      forward backward := by
  induction steps generalizing enumeration with
  | nil => exact ⟨[], [], .nil _⟩
  | cons first rest ih =>
    obtain ⟨isOther, restOnward⟩ := List.ne_and_not_mem_of_not_mem_cons onward
    obtain ⟨answer, later, advances⟩ := within.advances declares first
    obtain ⟨forward, backward, stepTakes⟩ := advances.takes (Ne.symm isOther)
    obtain ⟨forward', backward', restTakes⟩ := ih advances.within restOnward
    refine ⟨forward ++ forward', backward ++ backward', ?_⟩
    rw [trace_cons advances.given, after_cons advances.given]
    exact stepTakes.cons restTakes

end IsWithin

/-! ## Going back -/

theorem saved_taken (enumeration : Enumeration) (taken : Option (FieldRecord × FieldCursor)) :
    (enumeration.taken taken).2.saved = enumeration.saved := by
  cases taken <;> rfl

theorem taken_forgets (cursor saved saved' : FieldCursor)
    (taken : Option (FieldRecord × FieldCursor)) :
    Enumeration.taken ⟨cursor, saved'⟩ taken =
      let (answer, later) := Enumeration.taken ⟨cursor, saved⟩ taken
      (answer, { later with saved := saved' }) := by
  cases taken <;> rfl

/-- The place that is remembered stays until another one is. -/
theorem saved_step (kept : step ≠ .save)
    (given : enumeration.step memory step = .ok (answer, later)) :
    later.saved = enumeration.saved := by
  cases step with
  | next | nextBack =>
    obtain ⟨taken, -, moved⟩ := map_eq_ok.mp given
    have stays := saved_taken enumeration taken
    rwa [moved] at stays
  | save => exact absurd rfl kept
  | size | restore => cases given; rfl
  | toList | toListBack =>
    obtain ⟨records, -, moved⟩ := map_eq_ok.mp given
    cases moved
    rfl

/-- A step that does not go back does the same whatever place is remembered. -/
theorem step_forgets {cursor saved : FieldCursor} (saved' : FieldCursor) (onward : step ≠ .restore)
    (given : Enumeration.step ⟨cursor, saved⟩ memory step = .ok (answer, later)) :
    ∃ other, Enumeration.step ⟨cursor, saved'⟩ memory step =
      .ok (answer, { later with saved := other }) := by
  cases step with
  | next | nextBack =>
    obtain ⟨taken, reading, moved⟩ := map_eq_ok.mp given
    refine ⟨saved', map_eq_ok.mpr ⟨taken, reading, ?_⟩⟩
    rw [taken_forgets cursor saved saved', moved]
  | restore => exact absurd rfl onward
  | size => cases given; exact ⟨saved', rfl⟩
  | save => cases given; exact ⟨cursor, rfl⟩
  | toList | toListBack =>
    obtain ⟨records, reading, moved⟩ := map_eq_ok.mp given
    cases moved
    exact ⟨saved', map_eq_ok.mpr ⟨records, reading, rfl⟩⟩

namespace IsWithin

theorem saved_after (within : enumeration.IsWithin descriptor count)
    (declares : descriptor.Declares memory count) (kept : .save ∉ steps) :
    (enumeration.after memory steps).saved = enumeration.saved := by
  induction steps generalizing enumeration with
  | nil => rfl
  | cons first rest ih =>
    obtain ⟨isOther, restKept⟩ := List.ne_and_not_mem_of_not_mem_cons kept
    obtain ⟨answer, later, advances⟩ := within.advances declares first
    rw [after_cons advances.given, ih advances.within restKept]
    exact saved_step (Ne.symm isOther) advances.given

theorem after_append (within : enumeration.IsWithin descriptor count)
    (declares : descriptor.Declares memory count) (steps rest : List EnumerationStep) :
    enumeration.after memory (steps ++ rest) =
      (enumeration.after memory steps).after memory rest := by
  induction steps generalizing enumeration with
  | nil => rfl
  | cons first steps ih =>
    obtain ⟨answer, later, advances⟩ := within.advances declares first
    rw [List.cons_append, after_cons advances.given, after_cons advances.given,
      ih advances.within]

/-- Steps that do not go back answer the same whatever place is remembered. -/
theorem run_forgets {cursor saved : FieldCursor}
    (within : IsWithin ⟨cursor, saved⟩ descriptor count)
    (declares : descriptor.Declares memory count) (saved' : FieldCursor)
    (onward : .restore ∉ steps) :
    Enumeration.run ⟨cursor, saved'⟩ memory steps =
      Enumeration.run ⟨cursor, saved⟩ memory steps := by
  induction steps generalizing cursor saved saved' with
  | nil => rfl
  | cons first rest ih =>
    obtain ⟨isOther, restOnward⟩ := List.ne_and_not_mem_of_not_mem_cons onward
    obtain ⟨answer, later, advances⟩ := within.advances declares first
    obtain ⟨other, given⟩ := step_forgets saved' (Ne.symm isOther) advances.given
    rw [run_cons given, run_cons advances.given, ih advances.within other restOnward]

/-- Going back to the place remembered last is as if nothing had been done since. -/
theorem after_restore (within : enumeration.IsWithin descriptor count)
    (declares : descriptor.Declares memory count) (kept : .save ∉ steps) :
    enumeration.after memory (.save :: steps ++ [.restore]) = ofCursor enumeration.cursor := by
  have remembered : IsWithin (ofCursor enumeration.cursor) descriptor count :=
    ⟨within.cursor, within.cursor⟩
  calc enumeration.after memory (.save :: steps ++ [.restore])
      = (ofCursor enumeration.cursor).after memory (steps ++ [.restore]) := rfl
    _ = ((ofCursor enumeration.cursor).after memory steps).after memory [.restore] :=
        remembered.after_append declares steps _
    _ = ofCursor ((ofCursor enumeration.cursor).after memory steps).saved := rfl
    _ = ofCursor enumeration.cursor := by
        rw [remembered.saved_after declares kept]
        rfl

end IsWithin

/-! ## The law of an enumeration -/

/-- Wherever the enumeration is, it takes what is left from either end, one record at a time, and
    nothing when nothing is left. -/
structure HandsOutOnce (enumeration : Enumeration) (descriptor : FieldDescriptor) (memory : Memory)
    (count : Nat) : Prop where
  front_le_back : enumeration.cursor.front ≤ enumeration.cursor.back
  back_le : enumeration.cursor.back ≤ count
  /-- As many records are left as there are numbers from the front up to the back. -/
  size : enumeration.step memory .size =
    .ok (.size (enumeration.cursor.back - enumeration.cursor.front), enumeration)
  next : ∀ index others, enumeration.cursor.remaining = index :: others →
    ∃ record later, descriptor.IsRecord memory index record ∧
      enumeration.step memory .next = .ok (.record (some record), later) ∧
      later.cursor.remaining = others
  nextBack : ∀ index others, enumeration.cursor.remaining = others ++ [index] →
    ∃ record later, descriptor.IsRecord memory index record ∧
      enumeration.step memory .nextBack = .ok (.record (some record), later) ∧
      later.cursor.remaining = others
  toList : ∃ records, enumeration.step memory .toList = .ok (.records records, enumeration) ∧
    List.Forall₂ (descriptor.IsRecord memory) enumeration.cursor.remaining records
  toListBack : ∃ records,
    enumeration.step memory .toListBack = .ok (.records records, enumeration) ∧
    List.Forall₂ (descriptor.IsRecord memory) enumeration.cursor.remaining.reverse records
  /-- No step fails. -/
  answers : ∀ steps, ∃ answers : List EnumerationAnswer, answers.length = steps.length ∧
    enumeration.run memory steps = answers.map .ok
  /-- Steps that do not go back take no record twice, and all of them if they leave none. -/
  once : ∀ steps, .restore ∉ steps → ∃ forward backward,
    Takes descriptor memory (enumeration.trace memory steps) enumeration.cursor.remaining
      (enumeration.after memory steps).cursor.remaining forward backward ∧
    (forward ++ backward).Nodup ∧ forward.Pairwise (· < ·) ∧ backward.Pairwise (· > ·) ∧
    ((enumeration.after memory steps).cursor.remaining = [] →
      (forward ++ backward).Perm enumeration.cursor.remaining)
  /-- Once nothing is left, both ends give nothing until a step goes back. -/
  ended : enumeration.cursor.remaining = [] → ∀ steps, .restore ∉ steps →
    let later := enumeration.after memory steps
    later.step memory .next = .ok (.record none, later) ∧
      later.step memory .nextBack = .ok (.record none, later)
  /-- Going back to the place remembered last is as if nothing had been done since. -/
  returned : ∀ between, .save ∉ between →
    enumeration.after memory (.save :: between ++ [.restore]) = enumeration.after memory [.save]

namespace Takes

variable {trace : List (EnumerationStep × Except Fault EnumerationAnswer)}
  {before forward backward left : List Nat}

theorem perm (takes : Takes descriptor memory trace before [] forward backward) :
    (forward ++ backward).Perm before := by
  rw [takes.split, List.append_nil]
  exact (List.Perm.refl _).append backward.reverse_perm.symm

theorem left_eq_nil (takes : Takes descriptor memory trace [] left forward backward) :
    left = [] := by
  have split := takes.split.symm
  simp only [List.append_eq_nil_iff] at split
  exact split.1.2

end Takes

theorem IsWithin.handsOutOnce (within : enumeration.IsWithin descriptor count)
    (declares : descriptor.Declares memory count) :
    enumeration.HandsOutOnce descriptor memory count where
  front_le_back := within.cursor.front_le_back
  back_le := within.cursor.back_le
  size := rfl
  next index others left := by
    obtain ⟨record, cursor, isRecord, given, -, rest⟩ := within.next_cons declares left
    exact ⟨record, _, isRecord, given, rest⟩
  nextBack index others left := by
    obtain ⟨record, cursor, isRecord, given, -, rest⟩ := within.nextBack_concat declares left
    exact ⟨record, _, isRecord, given, rest⟩
  toList := within.toList_eq declares
  toListBack := within.toListBack_eq declares
  answers steps := by
    obtain ⟨answers, sameLength, ran, -⟩ := within.run_eq declares steps
    exact ⟨answers, sameLength, ran⟩
  once steps onward := by
    obtain ⟨forward, backward, takes⟩ := within.takes declares onward
    have ordered : enumeration.cursor.remaining.Pairwise (· < ·) := List.pairwise_lt_range'
    refine ⟨forward, backward, takes, takes.nodup List.nodup_range', takes.ascending ordered,
      takes.descending ordered, ?_⟩
    intro ended
    rw [ended] at takes
    exact takes.perm
  ended ended steps onward := by
    obtain ⟨-, -, -, still⟩ := within.run_eq declares steps
    obtain ⟨forward, backward, takes⟩ := within.takes declares onward
    rw [ended] at takes
    exact ⟨still.next_nil takes.left_eq_nil, still.nextBack_nil takes.left_eq_nil⟩
  returned between kept := within.after_restore declares kept

end Enumeration

/-- Where a descriptor's declared records can all be read, an enumeration of them hands out each
    once, wherever it is and whichever places it went back to; from such a place it goes on as it
    would have from there. -/
theorem FieldDescriptor.enumerated_once {descriptor : FieldDescriptor} {memory : Memory}
    {count : Nat} (declares : descriptor.Declares memory count) :
    (∀ index, descriptor.record? memory index = .ok none ↔ count ≤ index) ∧
      ∃ fresh, FieldCursor.all descriptor memory = .ok fresh ∧
        fresh.remaining = List.range count ∧
        ∀ enumeration, Enumeration.Reached memory fresh enumeration →
          enumeration.HandsOutOnce descriptor memory count ∧
          ∀ other, Enumeration.Reached memory fresh other → ∀ rest, .restore ∉ rest →
            Enumeration.run ⟨other.cursor, enumeration.cursor⟩ memory (.restore :: rest) =
              .ok .done :: enumeration.run memory rest := by
  refine ⟨fun _ => declares.record?_eq_none_iff, _, FieldCursor.all_eq declares,
    FieldCursor.remaining_all, ?_⟩
  intro enumeration reached
  have within := reached.isWithin declares
  refine ⟨within.handsOutOnce declares, ?_⟩
  intro other _ rest onward
  exact congrArg _ (within.run_forgets declares _ onward)

/-- A descriptor that declares the fields `x` and `y`, the types of which are not recorded. -/
def pairFields : Memory :=
  Memory.store .empty 0x1000
    #[0, 0, 0, 0, 0, 0, 0, 0, 0, 0, 12, 0, 2, 0, 0, 0,
      0, 0, 0, 0, 0, 0, 0, 0, 0x10, 0, 0, 0,
      2, 0, 0, 0, 0, 0, 0, 0, 0x06, 0, 0, 0,
      0x78, 0, 0x79, 0]

/-- Two records, one from each end, and the last again after going back. -/
theorem FieldDescriptor.enumerated_once_pairFields :
    (∀ index, record? ⟨⟨0x1000, by decide⟩⟩ pairFields index = .ok none ↔ 2 ≤ index) ∧
      ∃ fresh, FieldCursor.all ⟨⟨0x1000, by decide⟩⟩ pairFields = .ok fresh ∧
        fresh.remaining = [0, 1] ∧
        (Enumeration.ofCursor fresh).HandsOutOnce ⟨⟨0x1000, by decide⟩⟩ pairFields 2 ∧
        (Enumeration.ofCursor fresh).run pairFields [.next, .save, .nextBack, .restore, .nextBack] =
          [.ok (.record (some ⟨⟨0⟩, none, [0x78]⟩)), .ok .done,
            .ok (.record (some ⟨⟨2⟩, none, [0x79]⟩)), .ok .done,
            .ok (.record (some ⟨⟨2⟩, none, [0x79]⟩))] := by
  have declares : Declares ⟨⟨0x1000, by decide⟩⟩ pairFields 2 := by
    constructor
    · exact ok_of_toOption (by decide +kernel)
    · intro index declared
      match index with
      | 0 => exact ⟨⟨⟨0⟩, none, [0x78]⟩, ok_of_toOption (by decide +kernel)⟩
      | 1 => exact ⟨⟨⟨2⟩, none, [0x79]⟩, ok_of_toOption (by decide +kernel)⟩
  obtain ⟨pastEnd, fresh, all, remaining, laws⟩ := enumerated_once declares
  obtain rfl := Except.ok.inj ((FieldCursor.all_eq declares).symm.trans all)
  exact ⟨pastEnd, _, all, remaining, (laws _ .fresh).1, by decide +kernel⟩

end TypeReflection
