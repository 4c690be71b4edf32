import TypeReflection.Proofs.EncodedName
import TypeReflection.Proofs.Utf8

/-! # References in encoded names

A byte string is taken apart into references, each a control byte with the payload behind it, and
plain bytes between them. The parts are the same for the reader that lists references and for the
check for well-formed names, whatever the bytes are: only the last payload may be cut short, and it
is cut short just when the check fails.
-/

namespace TypeReflection

/-- The byte announces a payload where it belongs to none. -/
def IsControl (byte : UInt8) : Prop :=
  1 ≤ byte ∧ byte ≤ 0x1F

theorem payloadLength?_eq_none_iff {byte : UInt8} :
    payloadLength? byte = none ↔ ¬ IsControl byte := by
  have zero : byte = 0 ↔ byte.toNat = 0 := UInt8.toNat_inj.symm
  have short : byte ≤ 0x17 ↔ byte.toNat ≤ 0x17 := Iff.rfl
  have long : byte ≤ 0x1F ↔ byte.toNat ≤ 0x1F := Iff.rfl
  have first : 1 ≤ byte ↔ 1 ≤ byte.toNat := Iff.rfl
  simp only [payloadLength?, IsControl, zero, short, long, first]
  grind

namespace EncodedName

/-- A reference and the position of its control byte. -/
structure Located where
  position : Nat
  reference : SymbolicReference

namespace Located

variable (found : Located)

/-- The position behind the payload. -/
def stop : Nat :=
  found.position + 1 + found.reference.payload.length

/-- The control byte or a byte of the payload has this position. -/
def Covers (index : Nat) : Prop :=
  found.position ≤ index ∧ index < found.stop

/-- The control byte has its position, and as much of the payload as there is comes after it. -/
def StandsIn (bytes : List UInt8) : Prop :=
  bytes[found.position]? = some found.reference.control ∧
    ∃ length, payloadLength? found.reference.control = some length ∧
      found.reference.payload = (bytes.drop (found.position + 1)).take length

/-- The payload has the length that the control byte asks for. -/
def IsWhole : Prop :=
  payloadLength? found.reference.control = some found.reference.payload.length

/-- The payload is shorter than the control byte asks for. -/
def IsShort : Prop :=
  ∃ length, payloadLength? found.reference.control = some length ∧
    found.reference.payload.length < length

end Located

/-- The references in a byte string that starts at a position, the next `pending` bytes belonging
    to a payload. -/
def locatedFrom (start : Nat) : (pending : Nat) → List UInt8 → List Located
  | _, [] => []
  | pending + 1, _ :: rest => locatedFrom (start + 1) pending rest
  | 0, byte :: rest =>
      match payloadLength? byte with
      | some length => ⟨start, ⟨byte, rest.take length⟩⟩ :: locatedFrom (start + 1) length rest
      | none => locatedFrom (start + 1) 0 rest

theorem map_reference_locatedFrom (start pending : Nat) (bytes : List UInt8) :
    (locatedFrom start pending bytes).map (·.reference) = referencesFrom pending bytes := by
  induction bytes generalizing start pending with
  | nil => cases pending <;> rfl
  | cons byte bytes ih =>
      cases pending with
      | succ pending => exact ih ..
      | zero =>
          cases control : payloadLength? byte <;>
            simp [locatedFrom, referencesFrom, control, ih]

/-- There are at most as many references as bytes. -/
theorem length_referencesFrom_le (pending : Nat) (bytes : List UInt8) :
    (referencesFrom pending bytes).length ≤ bytes.length := by
  induction bytes generalizing pending with
  | nil => cases pending <;> exact Nat.le_refl 0
  | cons byte bytes ih =>
      cases pending with
      | succ pending => exact Nat.le_succ_of_le (ih pending)
      | zero =>
          cases control : payloadLength? byte with
          | none =>
              simp only [referencesFrom, control]
              exact Nat.le_succ_of_le (ih 0)
          | some length =>
              simp only [referencesFrom, control]
              exact Nat.succ_le_succ (ih length)

section Positions

variable {start pending : Nat} {bytes : List UInt8} {found : Located}

theorem position_of_mem_locatedFrom (member : found ∈ locatedFrom start pending bytes) :
    start + pending ≤ found.position ∧ found.position < start + bytes.length := by
  induction bytes generalizing start pending with
  | nil => cases pending <;> cases member
  | cons byte bytes ih =>
      rw [List.length_cons]
      cases pending with
      | succ pending =>
          have bounds : start + 1 + pending ≤ found.position ∧ _ := ih member
          omega
      | zero =>
          cases control : payloadLength? byte with
          | none =>
              simp only [locatedFrom, control] at member
              have bounds := ih member
              omega
          | some length =>
              simp only [locatedFrom, control, List.mem_cons] at member
              rcases member with rfl | later
              · dsimp only
                omega
              · have bounds := ih later
                omega

/-- A reference and its payload come before the references behind it. -/
theorem locatedFrom_ordered (start pending : Nat) (bytes : List UInt8) :
    (locatedFrom start pending bytes).Pairwise
      fun earlier later => earlier.stop ≤ later.position := by
  induction bytes generalizing start pending with
  | nil => cases pending <;> exact .nil
  | cons byte bytes ih =>
      cases pending with
      | succ pending => exact ih ..
      | zero =>
          cases control : payloadLength? byte with
          | none => simpa only [locatedFrom, control] using ih ..
          | some length =>
              simp only [locatedFrom, control]
              refine .cons (fun later member => ?_) (ih ..)
              have bounds := position_of_mem_locatedFrom member
              have cut := List.length_take_le length bytes
              simp only [Located.stop]
              omega

theorem standsIn_of_mem_locatedFrom {front : List UInt8}
    (member : found ∈ locatedFrom front.length pending bytes) :
    found.StandsIn (front ++ bytes) := by
  induction bytes generalizing front pending with
  | nil => cases pending <;> cases member
  | cons byte bytes ih =>
      have further : ∀ {pending}, found ∈ locatedFrom (front.length + 1) pending bytes →
          found.StandsIn (front ++ byte :: bytes) := by
        intro pending later
        have shifted : found ∈ locatedFrom (front ++ [byte]).length pending bytes := by
          rwa [List.length_append, List.length_singleton]
        rw [List.append_cons]
        exact ih shifted
      cases pending with
      | succ pending => exact further member
      | zero =>
          cases control : payloadLength? byte with
          | none =>
              simp only [locatedFrom, control] at member
              exact further member
          | some length =>
              simp only [locatedFrom, control, List.mem_cons] at member
              rcases member with rfl | later
              · refine ⟨by simp, length, control, ?_⟩
                rw [List.append_cons, List.drop_left' (by simp)]
              · exact further later

/-- A byte that no reference covers and no payload in front claims announces nothing. -/
theorem plain_of_locatedFrom {index : Nat} {byte : UInt8} (there : bytes[index]? = some byte)
    (outside : pending ≤ index)
    (uncovered : ∀ found ∈ locatedFrom start pending bytes, ¬ found.Covers (start + index)) :
    ¬ IsControl byte := by
  induction bytes generalizing start pending index with
  | nil => simp at there
  | cons first bytes ih =>
      cases pending with
      | succ pending =>
          obtain ⟨index, rfl⟩ := Nat.exists_eq_succ_of_ne_zero (Nat.ne_zero_of_lt outside)
          have others : ∀ found ∈ locatedFrom (start + 1) pending bytes,
              ¬ found.Covers (start + 1 + index) := by
            rw [Nat.add_assoc, Nat.add_comm 1]
            exact uncovered
          exact ih (by simpa using there) (Nat.le_of_succ_le_succ outside) others
      | zero =>
          cases control : payloadLength? first with
          | none =>
              simp only [locatedFrom, control] at uncovered
              cases index with
              | zero =>
                  cases there
                  exact payloadLength?_eq_none_iff.mp control
              | succ index =>
                  rw [Nat.add_comm index, ← Nat.add_assoc] at uncovered
                  exact ih (by simpa using there) (Nat.zero_le _) uncovered
          | some length =>
              simp only [locatedFrom, control, List.forall_mem_cons] at uncovered
              obtain ⟨behind, others⟩ := uncovered
              simp only [Located.Covers, Located.stop, List.length_take] at behind
              cases index with
              | zero => omega
              | succ index =>
                  have inside : index + 1 < (first :: bytes).length :=
                    (List.getElem?_eq_some_iff.mp there).1
                  rw [List.length_cons] at inside
                  rw [Nat.add_comm index, ← Nat.add_assoc] at others
                  exact ih (by simpa using there) (by omega) others

end Positions

/-! ## The parts of a byte string -/

/-- A byte string consists of the located references and of plain bytes. -/
structure Decomposes (bytes : List UInt8) (located : List Located) : Prop where
  /-- No reference begins before the payload of an earlier one is over. -/
  ordered : located.Pairwise fun earlier later => earlier.stop ≤ later.position
  stands : ∀ found ∈ located, found.StandsIn bytes
  /-- The bytes between the references announce nothing. -/
  plain : ∀ index byte, bytes[index]? = some byte → (∀ found ∈ located, ¬ found.Covers index) →
    ¬ IsControl byte
  /-- All payloads but the last are whole. -/
  whole : ∀ found ∈ located.dropLast, found.IsWhole
  /-- The last payload is short just where the bytes are not well formed. -/
  short : (∃ last ∈ located.getLast?, last.IsShort) ↔ isWellFormed bytes = false

section Lengths

variable {start pending length : Nat} {byte : UInt8} {bytes : List UInt8}

theorem whole_or_short (control : payloadLength? byte = some length) :
    (length ≤ bytes.length → (⟨start, ⟨byte, bytes.take length⟩⟩ : Located).IsWhole) ∧
      ((⟨start, ⟨byte, bytes.take length⟩⟩ : Located).IsShort ↔ bytes.length < length) := by
  simp only [Located.IsWhole, Located.IsShort, control, List.length_take]
  constructor
  · intro room
    rw [Nat.min_eq_left room]
  · constructor
    · rintro ⟨_, ⟨⟩, less⟩
      omega
    · intro less
      exact ⟨length, rfl, by omega⟩

theorem whole_of_locatedFrom (start pending : Nat) (bytes : List UInt8) :
    ∀ found ∈ (locatedFrom start pending bytes).dropLast, found.IsWhole := by
  induction bytes generalizing start pending with
  | nil => cases pending <;> simp [locatedFrom]
  | cons byte bytes ih =>
      cases pending with
      | succ pending => exact ih _ _
      | zero =>
          cases control : payloadLength? byte with
          | none => simpa only [locatedFrom, control] using ih _ _
          | some length =>
              simp only [locatedFrom, control]
              cases behind : locatedFrom (start + 1) length bytes with
              | nil => simp
              | cons next others =>
                  have later : next ∈ locatedFrom (start + 1) length bytes :=
                    behind ▸ List.mem_cons_self
                  have bounds := position_of_mem_locatedFrom later
                  rw [List.dropLast_cons_cons, List.forall_mem_cons, ← behind]
                  exact ⟨(whole_or_short control).1 (by omega), ih _ _⟩

theorem short_of_locatedFrom (start pending : Nat) (bytes : List UInt8) :
    (bytes.length < pending ∨ ∃ last ∈ (locatedFrom start pending bytes).getLast?, last.IsShort) ↔
      isWellFormedFrom pending bytes = false := by
  induction bytes generalizing start pending with
  | nil => cases pending <;> simp [locatedFrom, isWellFormedFrom]
  | cons byte bytes ih =>
      cases pending with
      | succ pending =>
          rw [isWellFormedFrom, ← ih (start + 1), List.length_cons, Nat.succ_lt_succ_iff]
          rfl
      | zero =>
          rw [isWellFormedFrom]
          cases control : payloadLength? byte with
          | none =>
              rw [Option.getD_none, ← ih (start + 1)]
              simp [locatedFrom, control]
          | some length =>
              rw [Option.getD_some, ← ih (start + 1)]
              simp only [locatedFrom, control]
              cases behind : locatedFrom (start + 1) length bytes with
              | nil => simp [(whole_or_short control).2]
              | cons next others =>
                  have later : next ∈ locatedFrom (start + 1) length bytes :=
                    behind ▸ List.mem_cons_self
                  have bounds := position_of_mem_locatedFrom later
                  rw [List.getLast?_cons_cons]
                  simp
                  omega

end Lengths

/-- The references that are listed are those that a byte string consists of. -/
theorem exists_decomposition (bytes : List UInt8) :
    ∃ located : List Located, located.map (·.reference) = references ⟨bytes⟩ ∧
      Decomposes bytes located := by
  refine ⟨locatedFrom 0 0 bytes, map_reference_locatedFrom 0 0 bytes, ?_⟩
  constructor
  case ordered => exact locatedFrom_ordered 0 0 bytes
  case stands =>
      intro found member
      have inside : found ∈ locatedFrom ([] : List UInt8).length 0 bytes := member
      exact standsIn_of_mem_locatedFrom inside
  case plain =>
      intro index byte there uncovered
      rw [← Nat.zero_add index] at uncovered
      exact plain_of_locatedFrom there (Nat.zero_le index) uncovered
  case whole => exact whole_of_locatedFrom 0 0 bytes
  case short =>
      rw [isWellFormed, ← short_of_locatedFrom 0 0 bytes]
      simp

theorem Located.StandsIn.isControl {bytes : List UInt8} {found : Located}
    (stands : found.StandsIn bytes) : IsControl found.reference.control := by
  obtain ⟨_, length, control, _⟩ := stands
  refine Classical.byContradiction fun plain => ?_
  rw [payloadLength?_eq_none_iff.mpr plain] at control
  cases control

/-- Any byte that could announce a payload shows that there is a reference, be it inside another
    payload. -/
theorem Decomposes.isEmpty_iff {bytes : List UInt8} {located : List Located}
    (decomposes : Decomposes bytes located) :
    located = [] ↔ ∀ byte ∈ bytes, ¬ IsControl byte := by
  constructor
  · rintro rfl byte member
    obtain ⟨index, there⟩ := List.mem_iff_getElem?.mp member
    exact decomposes.plain index byte there (List.forall_mem_nil _)
  · intro plain
    refine List.eq_nil_iff_forall_not_mem.mpr fun found member => ?_
    have stands := decomposes.stands found member
    exact plain _ (List.mem_of_getElem? stands.1) stands.isControl

/-! ## There is one way to take bytes apart -/

/-- The position tells the reference. -/
theorem Located.StandsIn.unique {bytes : List UInt8} {found other : Located}
    (stands : found.StandsIn bytes) (stands' : other.StandsIn bytes)
    (same : found.position = other.position) : found = other := by
  obtain ⟨position, control, payload⟩ := found
  obtain ⟨_, control', payload'⟩ := other
  obtain rfl : position = _ := same
  obtain ⟨there, length, asks, whole⟩ := stands
  obtain ⟨there', length', asks', whole'⟩ := stands'
  dsimp only at there there' asks asks' whole whole'
  obtain rfl : control = control' := Option.some.inj (there.symm.trans there')
  obtain rfl : length = length' := Option.some.inj (asks.symm.trans asks')
  rw [whole, whole']

/-- From a position on, bytes consist of the located references and of plain bytes. -/
structure Fills (bytes : List UInt8) (start : Nat) (located : List Located) : Prop where
  ordered : located.Pairwise fun earlier later => earlier.stop ≤ later.position
  stands : ∀ found ∈ located, found.StandsIn bytes ∧ start ≤ found.position
  plain : ∀ index byte, start ≤ index → bytes[index]? = some byte →
    (∀ found ∈ located, ¬ found.Covers index) → ¬ IsControl byte

namespace Fills

variable {bytes : List UInt8} {start : Nat} {first : Located} {located others : List Located}

theorem tail (fills : Fills bytes start (first :: located)) : Fills bytes first.stop located := by
  obtain ⟨behind, ordered⟩ := List.pairwise_cons.mp fills.ordered
  refine ⟨ordered, fun found member => ?_, fun index byte past there uncovered => ?_⟩
  · exact ⟨(fills.stands found (List.mem_cons_of_mem _ member)).1, behind found member⟩
  · have before := (fills.stands first List.mem_cons_self).2
    refine fills.plain index byte ?_ there (List.forall_mem_cons.mpr ⟨?_, uncovered⟩)
    · simp only [Located.stop] at past
      omega
    · simp only [Located.Covers]
      omega

/-- Other references cover the control byte of the first one, so one of them starts no later. -/
theorem head_le (fills : Fills bytes start (first :: located)) (fills' : Fills bytes start others) :
    ∃ next rest, others = next :: rest ∧ next.position ≤ first.position := by
  obtain ⟨stands, before⟩ := fills.stands first List.mem_cons_self
  have covered : ∃ found ∈ others, found.Covers first.position := by
    refine Classical.byContradiction fun none => ?_
    exact fills'.plain _ _ before stands.1
      (fun found member covers => none ⟨found, member, covers⟩) stands.isControl
  obtain ⟨found, member, begun, -⟩ := covered
  cases others with
  | nil => cases member
  | cons next rest =>
      refine ⟨next, rest, rfl, ?_⟩
      rcases List.mem_cons.mp member with rfl | later
      · exact begun
      · have apart := (List.pairwise_cons.mp fills'.ordered).1 found later
        simp only [Located.stop] at apart
        omega

theorem unique (fills : Fills bytes start located) (fills' : Fills bytes start others) :
    located = others := by
  induction located generalizing start others with
  | nil =>
      cases others with
      | nil => rfl
      | cons next rest =>
          obtain ⟨_, _, none, _⟩ := fills'.head_le fills
          cases none
  | cons first located ih =>
      obtain ⟨next, rest, rfl, le⟩ := fills.head_le fills'
      obtain ⟨_, _, ⟨⟩, ge⟩ := fills'.head_le fills
      obtain rfl : first = next :=
        (fills.stands first List.mem_cons_self).1.unique
          (fills'.stands next List.mem_cons_self).1 (Nat.le_antisymm ge le)
      rw [ih fills.tail fills'.tail]

end Fills

theorem Decomposes.fills {bytes : List UInt8} {located : List Located}
    (decomposes : Decomposes bytes located) : Fills bytes 0 located where
  ordered := decomposes.ordered
  stands found member := ⟨decomposes.stands found member, Nat.zero_le _⟩
  plain index byte _ := decomposes.plain index byte

theorem Decomposes.unique {bytes : List UInt8} {located others : List Located}
    (decomposes : Decomposes bytes located) (again : Decomposes bytes others) :
    located = others :=
  decomposes.fills.unique again.fills

/-! ## Text -/

/-- Bytes are read strictly as the text that they are the UTF-8 form of. -/
theorem utf8?_eq_some_iff {bytes : List UInt8} {text : String} :
    utf8? bytes = some text ↔ utf8Bytes text = bytes := by
  rw [utf8?, String.fromUTF8?, utf8Bytes, String.toUTF8_eq_toByteArray]
  constructor
  · intro read
    split at read
    case isTrue valid =>
        obtain rfl := Option.some.inj read
        rw [String.fromUTF8, List.data_toByteArray]
    case isFalse => cases read
  · rintro rfl
    have same : text.toByteArray.data.toList.toByteArray = text.toByteArray :=
      ByteArray.ext (by rw [List.data_toByteArray, Array.toArray_toList])
    have valid : text.toByteArray.data.toList.toByteArray.IsValidUTF8 := by
      rw [same]
      exact text.isValidUTF8
    rw [dif_pos valid]
    exact congrArg some (String.toByteArray_inj.mp same)

/-- The list of references, the check for well-formed names and the text of a name rest on the same
    parts of a byte string. -/
theorem references_exact (bytes : List UInt8) :
    (references ⟨bytes⟩).length ≤ bytes.length ∧
    (∃ located : List Located, located.map (·.reference) = references ⟨bytes⟩ ∧
      Decomposes bytes located ∧ ∀ others, Decomposes bytes others → others = located) ∧
    (hasReferences ⟨bytes⟩ = true ↔ ∃ byte ∈ bytes, IsControl byte) ∧
    ∀ text, plainText? ⟨bytes⟩ = some text ↔
      (∀ byte ∈ bytes, ¬ IsControl byte) ∧ utf8Bytes text = bytes := by
  obtain ⟨located, listed, decomposes⟩ := exists_decomposition bytes
  have refers : hasReferences ⟨bytes⟩ = true ↔ ∃ byte ∈ bytes, IsControl byte := by
    have plain := decomposes.isEmpty_iff
    rw [hasReferences, ← listed]
    simp [plain]
  refine ⟨length_referencesFrom_le 0 bytes,
    ⟨located, listed, decomposes, fun others again => again.unique decomposes⟩, refers,
    fun text => ?_⟩
  rw [plainText?, ← utf8?_eq_some_iff]
  split
  case isTrue some =>
      obtain ⟨byte, member, control⟩ := refers.mp some
      exact ⟨nofun, fun plain => absurd control (plain.1 byte member)⟩
  case isFalse none =>
      have plain : ∀ byte ∈ bytes, ¬ IsControl byte :=
        fun byte member control => none (refers.mpr ⟨byte, member, control⟩)
      rw [and_iff_right plain]

end EncodedName

end TypeReflection
