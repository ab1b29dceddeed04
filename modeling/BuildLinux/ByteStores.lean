/-
Blocks of bytes and the stores a loop makes to them, in order.

A loop that fills a buffer is described by the list of its stores.  Whether
they stay inside an allocation, which bytes they leave as they were and what a
byte holds afterwards are read off that list.  Stores made through a pointer
that only advances are contiguous, and leave their contents in one piece.
-/

import Mathlib.Data.List.Range
import Mathlib.Data.List.Flatten

namespace BuildLinux.ByteStores

abbrev Byte := BitVec 8

abbrev Block := List Byte

structure Store where
  offset : Nat
  bytes : List Byte

def Store.finish (store : Store) : Nat := store.offset + store.bytes.length

def Store.positions (store : Store) : List Nat := List.range' store.offset store.bytes.length

def positions (stores : List Store) : List Nat := stores.flatMap Store.positions

def contents (stores : List Store) : List Byte := stores.flatMap Store.bytes

/-- The bytes of a fresh allocation are whatever they were. -/
def allocate (garbage : Nat → Byte) (size : Nat) : Block := (List.range size).map garbage

def readBytes (block : Block) (offset count : Nat) : Option (List Byte) :=
  if offset + count ≤ block.length then some ((block.drop offset).take count) else none

def applyStore (block : Block) (store : Store) : Option Block :=
  if store.finish ≤ block.length then
    some (block.take store.offset ++ (store.bytes ++ block.drop store.finish))
  else none

def applyStores : Block → List Store → Option Block
  | block, [] => some block
  | block, store :: rest => (applyStore block store).bind fun after => applyStores after rest

/-- A loop over its iterations, each of which may fail or make some stores. -/
def eachStores {index : Type} (iterations : List index)
    (body : index → Option (List Store)) : Option (List Store) :=
  match iterations with
  | [] => some []
  | first :: rest =>
      (body first).bind fun stores =>
        (eachStores rest body).bind fun later => some (stores ++ later)

theorem allocate_length (garbage : Nat → Byte) (size : Nat) :
    (allocate garbage size).length = size := by
  rw [allocate, List.length_map, List.length_range]

theorem readBytes_within {block : Block} {offset count : Nat}
    (within : offset + count ≤ block.length) :
    readBytes block offset count = some ((block.drop offset).take count) :=
  if_pos within

theorem readBytes_congr {left right : Block} {here there count : Nat}
    (inLeft : here + count ≤ left.length) (inRight : there + count ≤ right.length)
    (same : ∀ index, index < count → left[here + index]? = right[there + index]?) :
    readBytes left here count = readBytes right there count := by
  rw [readBytes_within inLeft, readBytes_within inRight]
  congr 1
  apply List.ext_getElem?
  intro index
  by_cases inCount : index < count
  · rw [List.getElem?_take_of_lt inCount, List.getElem?_take_of_lt inCount, List.getElem?_drop,
      List.getElem?_drop, same index inCount]
  · rw [List.getElem?_eq_none, List.getElem?_eq_none]
    · exact Nat.le_trans (List.length_take_le _ _) (Nat.le_of_not_lt inCount)
    · exact Nat.le_trans (List.length_take_le _ _) (Nat.le_of_not_lt inCount)

theorem eachStores_some {index : Type} (iterations : List index)
    {body : index → Option (List Store)} (stores : index → List Store)
    (each : ∀ item ∈ iterations, body item = some (stores item)) :
    eachStores iterations body = some (iterations.flatMap stores) := by
  induction iterations with
  | nil => rfl
  | cons first rest ih =>
      have later := ih fun item member => each item (List.mem_cons_of_mem first member)
      rw [eachStores, each first List.mem_cons_self, later]
      rfl

theorem eachStores_congr {index : Type} (iterations : List index)
    {body other : index → Option (List Store)}
    (same : ∀ item ∈ iterations, body item = other item) :
    eachStores iterations body = eachStores iterations other := by
  induction iterations with
  | nil => rfl
  | cons first rest ih =>
      obtain ⟨head, later⟩ := List.forall_mem_cons.mp same
      rw [eachStores, eachStores, head, ih later]

/-! ### One store -/

theorem applyStore_within {block : Block} {store : Store} (within : store.finish ≤ block.length) :
    applyStore block store =
      some (block.take store.offset ++ (store.bytes ++ block.drop store.finish)) :=
  if_pos within

theorem applyStore_inversion {block after : Block} {store : Store}
    (applied : applyStore block store = some after) :
    store.finish ≤ block.length ∧
      after = block.take store.offset ++ (store.bytes ++ block.drop store.finish) := by
  unfold applyStore at applied
  split at applied
  · rename_i within
    exact ⟨within, (Option.some.inj applied).symm⟩
  · cases applied

theorem applyStore_length {block after : Block} {store : Store}
    (applied : applyStore block store = some after) : after.length = block.length := by
  obtain ⟨within, result⟩ := applyStore_inversion applied
  have reaches : store.offset + store.bytes.length ≤ block.length := within
  rw [result, List.length_append, List.length_append, List.length_take, List.length_drop,
    Nat.min_eq_left (by omega)]
  unfold Store.finish
  omega

theorem applyStore_covered {block after : Block} {store : Store}
    (applied : applyStore block store = some after) (index : Nat)
    (inStore : index < store.bytes.length) :
    after[store.offset + index]? = store.bytes[index]? := by
  obtain ⟨within, result⟩ := applyStore_inversion applied
  have reaches : store.offset + store.bytes.length ≤ block.length := within
  have front : (block.take store.offset).length = store.offset := by
    rw [List.length_take, Nat.min_eq_left (by omega)]
  rw [result, List.getElem?_append_right (by omega), front, Nat.add_sub_cancel_left,
    List.getElem?_append_left inStore]

theorem applyStore_untouched {block after : Block} {store : Store}
    (applied : applyStore block store = some after) (position : Nat)
    (outside : position < store.offset ∨ store.finish ≤ position) :
    after[position]? = block[position]? := by
  obtain ⟨within, result⟩ := applyStore_inversion applied
  have reaches : store.offset + store.bytes.length ≤ block.length := within
  have front : (block.take store.offset).length = store.offset := by
    rw [List.length_take, Nat.min_eq_left (by omega)]
  rw [result]
  rcases outside with before | behind
  · rw [List.getElem?_append_left (by omega), List.getElem?_take_of_lt before]
  · have past : store.offset + store.bytes.length ≤ position := behind
    rw [List.getElem?_append_right (by omega), front,
      List.getElem?_append_right (by omega), List.getElem?_drop]
    congr 1
    unfold Store.finish
    omega

/-! ### All the stores of a loop -/

theorem applyStores_cons {block after : Block} {store : Store} {rest : List Store}
    (applied : applyStores block (store :: rest) = some after) :
    ∃ middle, applyStore block store = some middle ∧ applyStores middle rest = some after :=
  Option.bind_eq_some_iff.mp applied

theorem applyStores_within {block : Block} {stores : List Store}
    (within : ∀ store ∈ stores, store.finish ≤ block.length) :
    ∃ after, applyStores block stores = some after := by
  induction stores generalizing block with
  | nil => exact ⟨block, rfl⟩
  | cons store rest ih =>
      have first := applyStore_within (within store List.mem_cons_self)
      have same := applyStore_length first
      obtain ⟨after, later⟩ := ih fun other member => by
        rw [same]
        exact within other (List.mem_cons_of_mem store member)
      refine ⟨after, ?_⟩
      rw [applyStores, first]
      exact later

theorem applyStores_length {block after : Block} {stores : List Store}
    (applied : applyStores block stores = some after) : after.length = block.length := by
  induction stores generalizing block with
  | nil =>
      cases applied
      rfl
  | cons store rest ih =>
      obtain ⟨middle, first, later⟩ := applyStores_cons applied
      rw [ih later, applyStore_length first]

theorem applyStores_untouched {block after : Block} {stores : List Store}
    (applied : applyStores block stores = some after) (position : Nat)
    (outside : ∀ store ∈ stores, position < store.offset ∨ store.finish ≤ position) :
    after[position]? = block[position]? := by
  induction stores generalizing block with
  | nil =>
      cases applied
      rfl
  | cons store rest ih =>
      obtain ⟨middle, first, later⟩ := applyStores_cons applied
      rw [ih later fun other member => outside other (List.mem_cons_of_mem store member),
        applyStore_untouched first position (outside store List.mem_cons_self)]

def Apart (left right : Store) : Prop :=
  left.finish ≤ right.offset ∨ right.finish ≤ left.offset

/-- Stores that are apart all stay: each leaves its bytes where it put them. -/
theorem applyStores_covered {block after : Block} {stores : List Store}
    (applied : applyStores block stores = some after) (apart : stores.Pairwise Apart)
    {store : Store} (member : store ∈ stores) (index : Nat)
    (inStore : index < store.bytes.length) :
    after[store.offset + index]? = store.bytes[index]? := by
  induction stores generalizing block with
  | nil => cases member
  | cons head rest ih =>
      obtain ⟨middle, first, later⟩ := applyStores_cons applied
      obtain ⟨fromHead, fromRest⟩ := List.pairwise_cons.mp apart
      rcases List.mem_cons.mp member with isHead | inRest
      · subst isHead
        rw [applyStores_untouched later (store.offset + index),
          applyStore_covered first index inStore]
        intro other otherMember
        rcases fromHead other otherMember with before | behind
        · exact Or.inl (Nat.lt_of_lt_of_le (Nat.add_lt_add_left inStore _) before)
        · exact Or.inr (Nat.le_trans behind (Nat.le_add_right _ _))
      · exact ih later fromRest inRest

/-! ### Stores of the bytes of one target -/

/-- The places that the stores write to. -/
def Covers (stores : List Store) (position : Nat) : Prop :=
  ∃ store ∈ stores, store.offset ≤ position ∧ position < store.finish

/-- Every store puts the target's bytes, and together they write to the region. -/
structure Fills (target : Nat → Byte) (stores : List Store) (region : Nat → Prop) : Prop where
  bytes : ∀ store ∈ stores, ∀ index, index < store.bytes.length →
    store.bytes[index]? = some (target (store.offset + index))
  covers : ∀ position, Covers stores position ↔ region position

theorem covers_append (left right : List Store) (position : Nat) :
    Covers (left ++ right) position ↔ Covers left position ∨ Covers right position := by
  unfold Covers
  constructor
  · rintro ⟨store, member, inStore⟩
    rcases List.mem_append.mp member with inLeft | inRight
    · exact Or.inl ⟨store, inLeft, inStore⟩
    · exact Or.inr ⟨store, inRight, inStore⟩
  · rintro (⟨store, member, inStore⟩ | ⟨store, member, inStore⟩)
    · exact ⟨store, List.mem_append_left _ member, inStore⟩
    · exact ⟨store, List.mem_append_right _ member, inStore⟩

section Fills

variable {target : Nat → Byte}

theorem fills_nil : Fills target [] fun _ => False where
  bytes := fun _ member => nomatch member
  covers := fun _ => iff_of_false (fun ⟨_, member, _⟩ => nomatch member) id

theorem fills_store {store : Store} (bytes : ∀ index, index < store.bytes.length →
    store.bytes[index]? = some (target (store.offset + index))) :
    Fills target [store] fun position => store.offset ≤ position ∧ position < store.finish where
  bytes := fun other member => List.mem_singleton.mp member ▸ bytes
  covers := by
    intro position
    constructor
    · rintro ⟨other, member, inStore⟩
      rw [List.mem_singleton.mp member] at inStore
      exact inStore
    · exact fun inStore => ⟨store, List.mem_cons_self, inStore⟩

theorem Fills.append {left right : List Store} {first second : Nat → Prop}
    (fillsLeft : Fills target left first) (fillsRight : Fills target right second) :
    Fills target (left ++ right) fun position => first position ∨ second position where
  bytes := List.forall_mem_append.mpr ⟨fillsLeft.bytes, fillsRight.bytes⟩
  covers := fun position => (covers_append left right position).trans
    (or_congr (fillsLeft.covers position) (fillsRight.covers position))

theorem Fills.congr {stores : List Store} {region other : Nat → Prop}
    (fills : Fills target stores region) (same : ∀ position, region position ↔ other position) :
    Fills target stores other :=
  ⟨fills.bytes, fun position => (fills.covers position).trans (same position)⟩

theorem fills_flatMap {index : Type} (items : List index) {stores : index → List Store}
    {region : index → Nat → Prop}
    (each : ∀ item ∈ items, Fills target (stores item) (region item)) :
    Fills target (items.flatMap stores) fun position => ∃ item ∈ items, region item position := by
  induction items with
  | nil =>
      exact fills_nil.congr fun position => iff_of_false id fun ⟨_, member, _⟩ => nomatch member
  | cons item rest ih =>
      obtain ⟨first, later⟩ := List.forall_mem_cons.mp each
      rw [List.flatMap_cons]
      refine (first.append (ih later)).congr fun position => ?_
      simp only [List.mem_cons, exists_eq_or_imp]

/-- Where they write, the stores leave the target. -/
theorem Fills.applied {stores : List Store} {region : Nat → Prop}
    (fills : Fills target stores region) {block after : Block}
    (applied : applyStores block stores = some after) {position : Nat}
    (inRegion : region position) :
    after[position]? = some (target position) := by
  have covered := (fills.covers position).mpr inRegion
  have bytes := fills.bytes
  clear fills inRegion
  induction stores generalizing block with
  | nil => exact absurd covered fun ⟨_, member, _⟩ => nomatch member
  | cons store rest ih =>
      obtain ⟨middle, first, later⟩ := applyStores_cons applied
      obtain ⟨head, others⟩ := List.forall_mem_cons.mp bytes
      by_cases inRest : Covers rest position
      · exact ih later inRest others
      · have inStore : store.offset ≤ position ∧ position < store.finish := by
          obtain ⟨other, member, inOther⟩ := covered
          rcases List.mem_cons.mp member with isHead | inTail
          · exact isHead ▸ inOther
          · exact absurd ⟨other, inTail, inOther⟩ inRest
        have place : position = store.offset + (position - store.offset) := by omega
        have within : position - store.offset < store.bytes.length := by
          have finish := inStore.2
          unfold Store.finish at finish
          omega
        rw [applyStores_untouched later position, place, applyStore_covered first _ within,
          head _ within]
        intro other member
        by_contra inOther
        exact inRest ⟨other, member, by omega⟩

theorem Fills.untouched {stores : List Store} {region : Nat → Prop}
    (fills : Fills target stores region) {block after : Block}
    (applied : applyStores block stores = some after) {position : Nat}
    (outside : ¬region position) : after[position]? = block[position]? := by
  refine applyStores_untouched applied position fun store member => ?_
  by_contra inStore
  exact outside ((fills.covers position).mp ⟨store, member, by omega⟩)

/-- Two ways to fill one region with one target have the same result. -/
theorem Fills.same {left right : List Store} {region : Nat → Prop}
    (fillsLeft : Fills target left region) (fillsRight : Fills target right region)
    {block first second : Block} (appliedLeft : applyStores block left = some first)
    (appliedRight : applyStores block right = some second) : first = second := by
  apply List.ext_getElem?
  intro position
  by_cases inRegion : region position
  · rw [fillsLeft.applied appliedLeft inRegion, fillsRight.applied appliedRight inRegion]
  · rw [fillsLeft.untouched appliedLeft inRegion, fillsRight.untouched appliedRight inRegion]

end Fills

/-! ### Ascending stores -/

/-- Each store begins where the one before it ended or behind that, between two bounds. -/
def Ascending : Nat → Nat → List Store → Prop
  | lower, upper, [] => lower ≤ upper
  | lower, upper, store :: rest => lower ≤ store.offset ∧ Ascending store.finish upper rest

theorem Ascending.bounds {lower upper : Nat} {stores : List Store}
    (ascending : Ascending lower upper stores) : lower ≤ upper := by
  induction stores generalizing lower with
  | nil => exact ascending
  | cons store rest ih =>
      exact ascending.1.trans ((Nat.le_add_right _ _).trans (ih ascending.2))

theorem Ascending.append {lower middle upper : Nat} {left right : List Store}
    (first : Ascending lower middle left) (second : Ascending middle upper right) :
    Ascending lower upper (left ++ right) := by
  induction left generalizing lower with
  | nil =>
      cases right with
      | nil => exact Nat.le_trans first second
      | cons store rest => exact ⟨Nat.le_trans first second.1, second.2⟩
  | cons store rest ih => exact ⟨first.1, ih first.2⟩

/-- A counted loop whose iteration `index` stores between `place index` and the next place. -/
theorem ascending_range (stores : Nat → List Store) (place : Nat → Nat) (count : Nat)
    (each : ∀ index, index < count → Ascending (place index) (place (index + 1)) (stores index)) :
    Ascending (place 0) (place count) ((List.range count).flatMap stores) := by
  induction count with
  | zero => exact Nat.le_refl _
  | succ count ih =>
      have before := ih fun index below => each index (Nat.lt_succ_of_lt below)
      rw [List.range_succ, List.flatMap_append, List.flatMap_cons, List.flatMap_nil,
        List.append_nil]
      exact before.append (each count (Nat.lt_succ_self count))

theorem Ascending.within {lower upper : Nat} {stores : List Store}
    (ascending : Ascending lower upper stores) :
    ∀ store ∈ stores, lower ≤ store.offset ∧ store.finish ≤ upper := by
  induction stores generalizing lower with
  | nil => exact fun store member => nomatch member
  | cons head rest ih =>
      intro store member
      rcases List.mem_cons.mp member with isHead | inRest
      · rw [isHead]
        exact ⟨ascending.1, ascending.2.bounds⟩
      · obtain ⟨above, below⟩ := ih ascending.2 store inRest
        have behind : head.offset ≤ head.finish := Nat.le_add_right _ _
        exact ⟨ascending.1.trans (behind.trans above), below⟩

theorem Ascending.apart {lower upper : Nat} {stores : List Store}
    (ascending : Ascending lower upper stores) : stores.Pairwise Apart := by
  induction stores generalizing lower with
  | nil => exact List.Pairwise.nil
  | cons head rest ih =>
      refine List.Pairwise.cons (fun store member => Or.inl ?_) (ih ascending.2)
      exact (ascending.2.within store member).1

/-! ### Contiguous stores -/

/-- The stores of a pointer that advances by what it stored. -/
def Contiguous : Nat → List Store → Prop
  | _, [] => True
  | offset, store :: rest =>
      store.offset = offset ∧ Contiguous (offset + store.bytes.length) rest

theorem contents_append (left right : List Store) :
    contents (left ++ right) = contents left ++ contents right :=
  List.flatMap_append

theorem contents_cons (store : Store) (rest : List Store) :
    contents (store :: rest) = store.bytes ++ contents rest :=
  List.flatMap_cons

theorem contiguous_append {offset : Nat} {left right : List Store}
    (first : Contiguous offset left)
    (second : Contiguous (offset + (contents left).length) right) :
    Contiguous offset (left ++ right) := by
  induction left generalizing offset with
  | nil => exact second
  | cons store rest ih =>
      refine ⟨first.1, ih first.2 ?_⟩
      rw [contents_cons, List.length_append, ← Nat.add_assoc] at second
      exact second

theorem contiguous_positions {offset : Nat} {stores : List Store}
    (contiguous : Contiguous offset stores) :
    positions stores = List.range' offset (contents stores).length := by
  induction stores generalizing offset with
  | nil => rfl
  | cons store rest ih =>
      change store.positions ++ positions rest = _
      rw [ih contiguous.2, contents_cons, List.length_append, Store.positions, contiguous.1,
        ← List.range'_append_1]

theorem contiguous_ascending {offset : Nat} {stores : List Store}
    (contiguous : Contiguous offset stores) :
    Ascending offset (offset + (contents stores).length) stores := by
  induction stores generalizing offset with
  | nil => exact Nat.le_add_right _ _
  | cons store rest ih =>
      refine ⟨contiguous.1.ge, ?_⟩
      rw [contents_cons, List.length_append, ← Nat.add_assoc, Store.finish, contiguous.1]
      exact ih contiguous.2

theorem applyStores_contiguous {block : Block} {offset : Nat} {stores : List Store}
    (contiguous : Contiguous offset stores)
    (within : offset + (contents stores).length ≤ block.length) :
    applyStores block stores = some (block.take offset ++
      (contents stores ++ block.drop (offset + (contents stores).length))) := by
  induction stores generalizing offset block with
  | nil =>
      change some block = some (block.take offset ++ ([] ++ block.drop (offset + 0)))
      rw [List.nil_append, Nat.add_zero, List.take_append_drop]
  | cons store rest ih =>
      rw [contents_cons, List.length_append, ← Nat.add_assoc] at within
      have reaches : store.finish ≤ block.length := by
        rw [Store.finish, contiguous.1]
        exact Nat.le_trans (Nat.le_add_right _ _) within
      have first := applyStore_within reaches
      have same := applyStore_length first
      have later := ih contiguous.2 (by rw [same]; exact within)
      have front : (block.take offset ++ store.bytes).length = offset + store.bytes.length := by
        rw [List.length_append, List.length_take, Nat.min_eq_left (by omega)]
      have finish : store.finish = offset + store.bytes.length := by
        rw [Store.finish, contiguous.1]
      rw [contiguous.1, ← List.append_assoc, ← front, List.take_left,
        List.drop_length_add_append, List.drop_drop, finish] at later
      rw [applyStores, first, Option.bind_some, contiguous.1, ← List.append_assoc, finish, later,
        contents_cons, List.length_append, List.append_assoc, List.append_assoc, Nat.add_assoc]

/-- Stores without gaps are known by where they begin and what they leave. -/
theorem applyStores_same {block : Block} {offset : Nat} {left right : List Store}
    (first : Contiguous offset left) (second : Contiguous offset right)
    (same : contents left = contents right)
    (within : offset + (contents right).length ≤ block.length) :
    applyStores block left = applyStores block right := by
  rw [applyStores_contiguous first (by rw [same]; exact within),
    applyStores_contiguous second within, same]

/-- Stores that fill a block from its start leave exactly their contents. -/
theorem applyStores_fill {block : Block} {stores : List Store} (contiguous : Contiguous 0 stores)
    (exact : block.length = (contents stores).length) :
    applyStores block stores = some (contents stores) := by
  rw [applyStores_contiguous contiguous (by omega), List.take_zero, List.nil_append, Nat.zero_add,
    List.drop_eq_nil_of_le (by omega), List.append_nil]

/-! ### Stores of one element side by side -/

/-- Memory full of one element from a base on. -/
def tiled (element : List Byte) (base position : Nat) : Byte :=
  element.getD ((position - base) % element.length) 0

/-- `p[i] = element` for every `i` below a count. -/
def tiles (element : List Byte) (count pointer : Nat) : List Store :=
  (List.range count).map fun i => { offset := pointer + i * element.length, bytes := element }

theorem tiles_succ (element : List Byte) (count pointer : Nat) :
    tiles element (count + 1) pointer =
      { offset := pointer, bytes := element } ::
        tiles element count (pointer + element.length) := by
  unfold tiles
  rw [List.range_succ_eq_map, List.map_cons, List.map_map, Nat.zero_mul]
  refine congrArg _ (List.map_congr_left fun i _ => ?_)
  dsimp only [Function.comp]
  rw [Nat.succ_mul, Nat.add_assoc, Nat.add_comm element.length]

theorem tiles_ascending (element : List Byte) (count pointer : Nat) :
    Ascending pointer (pointer + count * element.length) (tiles element count pointer) := by
  induction count generalizing pointer with
  | zero => exact Nat.le_add_right _ _
  | succ count ih =>
      rw [tiles_succ]
      refine ⟨Nat.le_refl _, ?_⟩
      have later := ih (pointer + element.length)
      rw [Nat.add_assoc, Nat.add_comm element.length, ← Nat.succ_mul] at later
      exact later

/-- Where the bytes of an element lie that is aligned to the base. -/
theorem tiled_aligned {element : List Byte} {base offset : Nat} (behind : base ≤ offset)
    (aligned : element.length ∣ offset - base) {index : Nat} (inElement : index < element.length) :
    element[index]? = some (tiled element base (offset + index)) := by
  have place : (offset + index - base) % element.length = index := by
    rw [Nat.sub_add_comm behind, Nat.add_mod, Nat.mod_eq_zero_of_dvd aligned, Nat.zero_add,
      Nat.mod_mod, Nat.mod_eq_of_lt inElement]
  unfold tiled
  rw [place, List.getD_eq_getElem?_getD, List.getElem?_eq_getElem inElement, Option.getD_some]

theorem tiles_fills {element : List Byte} {base : Nat} (count : Nat) {pointer : Nat}
    (behind : base ≤ pointer) (aligned : element.length ∣ pointer - base) :
    Fills (tiled element base) (tiles element count pointer) fun position =>
      pointer ≤ position ∧ position < pointer + count * element.length := by
  induction count generalizing pointer with
  | zero =>
      refine fills_nil.congr fun position => iff_of_false id ?_
      omega
  | succ count ih =>
      have next : element.length ∣ pointer + element.length - base := by
        rw [Nat.sub_add_comm behind]
        exact (Nat.dvd_add_self_right).mpr aligned
      have first : Fills (tiled element base) [{ offset := pointer, bytes := element }] _ :=
        fills_store fun index inElement => tiled_aligned behind aligned inElement
      have later := ih (behind.trans (Nat.le_add_right _ _)) next
      rw [tiles_succ]
      refine (first.append later).congr fun position => ?_
      unfold Store.finish
      dsimp only
      rw [Nat.succ_mul]
      omega

/-- A run of one byte. -/
theorem replicate_fills (byte : Byte) (base pointer size : Nat) :
    Fills (tiled [byte] base) [{ offset := pointer, bytes := List.replicate size byte }]
      fun position => pointer ≤ position ∧ position < pointer + size * [byte].length := by
  refine (fills_store fun index inRun => ?_).congr fun position => ?_
  · rw [List.length_replicate] at inRun
    rw [List.getElem?_replicate_of_lt inRun]
    unfold tiled
    rw [List.length_singleton, Nat.mod_one]
    rfl
  · unfold Store.finish
    rw [List.length_replicate, List.length_singleton, Nat.mul_one]

/-! ### Rows of equal length -/

/-- The stores of a loop that copies `rows` rows, the two pointers advancing by
their own lines. -/
def rowStores (source : Block) (count line stride : Nat) : Nat → Nat → Nat → List Store
  | 0, _, _ => []
  | rows + 1, here, there =>
      { offset := there, bytes := (source.drop here).take count } ::
        rowStores source count line stride rows (here + line) (there + stride)

theorem rowStores_eq_map (source : Block) (count line stride rows here there : Nat) :
    rowStores source count line stride rows here there =
      (List.range rows).map fun row =>
        { offset := there + row * stride
          bytes := (source.drop (here + row * line)).take count } := by
  induction rows generalizing here there with
  | zero => rfl
  | succ rows ih =>
      rw [rowStores, ih, List.range_succ_eq_map, List.map_cons, List.map_map, Nat.zero_mul,
        Nat.zero_mul]
      congr 1
      refine List.map_congr_left fun row _ => ?_
      dsimp only [Function.comp]
      rw [Nat.succ_mul, Nat.succ_mul, Nat.add_assoc, Nat.add_assoc, Nat.add_comm stride,
        Nat.add_comm line]

section Rows

variable {source : Block} {count line stride rows here there : Nat}
  (inSource : ∀ row, row < rows → here + row * line + count ≤ source.length)
  (narrow : count ≤ stride)

theorem rowStore_length {row : Nat} (inRows : here + row * line + count ≤ source.length) :
    ((source.drop (here + row * line)).take count).length = count := by
  rw [List.length_take, List.length_drop, Nat.min_eq_left (by omega)]

include inSource

theorem rowStores_member {store : Store}
    (member : store ∈ rowStores source count line stride rows here there) :
    ∃ row, row < rows ∧ store.offset = there + row * stride ∧
      store.finish = there + row * stride + count := by
  rw [rowStores_eq_map] at member
  obtain ⟨row, inRange, rfl⟩ := List.mem_map.mp member
  have inRows := List.mem_range.mp inRange
  refine ⟨row, inRows, rfl, ?_⟩
  rw [Store.finish, rowStore_length (inSource row inRows)]

include narrow

theorem rowStores_apart : (rowStores source count line stride rows here there).Pairwise Apart := by
  rw [rowStores_eq_map, List.pairwise_map]
  refine List.Pairwise.imp_of_mem ?_ List.pairwise_lt_range
  intro upper lower inUpper _ below
  refine Or.inl ?_
  rw [Store.finish, rowStore_length (inSource upper (List.mem_range.mp inUpper))]
  have lines := Nat.mul_le_mul_right stride (Nat.succ_le_of_lt below)
  rw [Nat.succ_mul] at lines
  dsimp only
  omega

/-- The copied rows, and what lies between them. -/
theorem rowStores_spec {destination : Block}
    (inDestination : ∀ row, row < rows → there + row * stride + count ≤ destination.length) :
    ∃ after,
      applyStores destination (rowStores source count line stride rows here there) = some after ∧
      after.length = destination.length ∧
      (∀ row index, row < rows → index < count →
        after[there + row * stride + index]? = source[here + row * line + index]?) ∧
      ∀ position, (∀ row, row < rows → position < there + row * stride ∨
          there + row * stride + count ≤ position) →
        after[position]? = destination[position]? := by
  have within : ∀ store ∈ rowStores source count line stride rows here there,
      store.finish ≤ destination.length := by
    intro store member
    obtain ⟨row, inRows, _, finish⟩ := rowStores_member inSource member
    rw [finish]
    exact inDestination row inRows
  obtain ⟨after, applied⟩ := applyStores_within within
  refine ⟨after, applied, applyStores_length applied, ?_, ?_⟩
  · intro row index inRows inCount
    have member : (Store.mk (there + row * stride) ((source.drop (here + row * line)).take count)) ∈
        rowStores source count line stride rows here there := by
      rw [rowStores_eq_map]
      exact List.mem_map_of_mem (List.mem_range.mpr inRows)
    have covered := applyStores_covered applied (rowStores_apart inSource narrow) member index
      (by rw [rowStore_length (inSource row inRows)]; exact inCount)
    refine covered.trans ?_
    rw [List.getElem?_take_of_lt inCount, List.getElem?_drop]
  · intro position outside
    refine applyStores_untouched applied position fun store member => ?_
    obtain ⟨row, inRows, offset, finish⟩ := rowStores_member inSource member
    rw [offset, finish]
    exact outside row inRows

end Rows

/-- Rows without gaps are one piece of the source. -/
theorem rowStores_contiguous {source : Block} {count rows here there : Nat}
    (inSource : here + rows * count ≤ source.length) :
    Contiguous there (rowStores source count count count rows here there) ∧
      contents (rowStores source count count count rows here there) =
        (source.drop here).take (rows * count) := by
  induction rows generalizing here there with
  | zero =>
      rw [Nat.zero_mul, List.take_zero]
      exact ⟨trivial, rfl⟩
  | succ rows ih =>
      rw [Nat.succ_mul] at inSource ⊢
      obtain ⟨contiguous, later⟩ := @ih (here + count) (there + count) (by omega)
      have first : ((source.drop here).take count).length = count := by
        rw [List.length_take, List.length_drop, Nat.min_eq_left (by omega)]
      rw [rowStores, contents_cons, later, Nat.add_comm (rows * count), List.take_add,
        List.drop_drop]
      refine ⟨⟨rfl, ?_⟩, rfl⟩
      rw [first]
      exact contiguous

/-! ### Pieces of one length -/

theorem flatMap_length {index : Type} {piece : index → List Byte} {size : Nat}
    (sizes : ∀ item, (piece item).length = size) (items : List index) :
    (items.flatMap piece).length = items.length * size := by
  induction items with
  | nil => exact (Nat.zero_mul size).symm
  | cons item rest ih =>
      rw [List.flatMap_cons, List.length_append, sizes, ih, List.length_cons, Nat.succ_mul]
      omega

theorem readBytes_piece {index : Type} {piece : index → List Byte} {size : Nat}
    (sizes : ∀ item, (piece item).length = size) {items : List index} {place : Nat} {item : index}
    (found : items[place]? = some item) (rest : List Byte) :
    readBytes (items.flatMap piece ++ rest) (place * size) size = some (piece item) := by
  have inItems : place < items.length := (List.getElem?_eq_some_iff.mp found).1
  have front : ((items.take place).flatMap piece).length = place * size := by
    rw [flatMap_length sizes, List.length_take, Nat.min_eq_left (by omega)]
  have split : items.flatMap piece ++ rest = (items.take place).flatMap piece ++
      (piece item ++ ((items.drop (place + 1)).flatMap piece ++ rest)) := by
    have cut : items = items.take place ++ item :: items.drop (place + 1) := by
      rw [← (List.getElem?_eq_some_iff.mp found).2, List.getElem_cons_drop,
        List.take_append_drop]
    conv => lhs; rw [cut]
    rw [List.flatMap_append, List.flatMap_cons, List.append_assoc, List.append_assoc]
  rw [readBytes, split, if_pos, ← front, List.drop_left, ← sizes item, List.take_left]
  rw [List.length_append, List.length_append, front, sizes]
  omega

/-! ### One element laid from a pointer on -/

/-- Stores without gaps that leave an element so many times. -/
structure Lays (element : List Byte) (count pointer : Nat) (stores : List Store) : Prop where
  contiguous : Contiguous pointer stores
  contents : contents stores = (List.replicate count element).flatten

/-- A loop over rows at one stride. -/
def eachRow (line : Nat → List Store) (stride : Nat) : Nat → Nat → List Store
  | 0, _ => []
  | rows + 1, pointer => line pointer ++ eachRow line stride rows (pointer + stride)

section Lays

variable {element : List Byte} {pointer : Nat}

theorem flatten_replicate_length (count : Nat) (element : List Byte) :
    (List.replicate count element).flatten.length = count * element.length := by
  rw [List.length_flatten, List.map_replicate, List.sum_replicate_nat]

theorem lays_nothing (element : List Byte) (pointer : Nat) : Lays element 0 pointer [] :=
  ⟨trivial, rfl⟩

theorem lays_store {element : List Byte} {count : Nat} {bytes : List Byte}
    (same : bytes = (List.replicate count element).flatten) (pointer : Nat) :
    Lays element count pointer [{ offset := pointer, bytes := bytes }] :=
  ⟨⟨rfl, trivial⟩, (List.append_nil bytes).trans same⟩

theorem Lays.append {first second : Nat} {left right : List Store}
    (laid : Lays element first pointer left)
    (more : Lays element second (pointer + first * element.length) right) :
    Lays element (first + second) pointer (left ++ right) := by
  constructor
  · refine contiguous_append laid.contiguous ?_
    rw [laid.contents, flatten_replicate_length]
    exact more.contiguous
  · rw [contents_append, laid.contents, more.contents, ← List.flatten_append,
      List.replicate_append_replicate]

theorem tiles_lays (element : List Byte) (count pointer : Nat) :
    Lays element count pointer (tiles element count pointer) := by
  induction count generalizing pointer with
  | zero => exact lays_nothing element pointer
  | succ count ih =>
      have first : Lays element 1 pointer [{ offset := pointer, bytes := element }] :=
        lays_store (List.append_nil element).symm pointer
      rw [tiles_succ, Nat.add_comm count]
      refine first.append ?_
      rw [Nat.one_mul]
      exact ih _

/-- Rows that are laid at their own length are laid as one. -/
theorem eachRow_lays {line : Nat → List Store} {count stride : Nat}
    (rows : ∀ pointer, Lays element count pointer (line pointer))
    (whole : stride = count * element.length) (height pointer : Nat) :
    Lays element (height * count) pointer (eachRow line stride height pointer) := by
  induction height generalizing pointer with
  | zero =>
      rw [Nat.zero_mul]
      exact lays_nothing element pointer
  | succ height ih =>
      rw [Nat.succ_mul, Nat.add_comm]
      refine (rows pointer).append ?_
      rw [← whole]
      exact ih _

/-- A block that is laid full holds the element at each place. -/
theorem Lays.applied {count : Nat} {stores : List Store} (laid : Lays element count 0 stores)
    {block : Block} (exact : block.length = count * element.length) :
    applyStores block stores = some (List.replicate count element).flatten := by
  rw [← laid.contents]
  refine applyStores_fill laid.contiguous ?_
  rw [laid.contents, flatten_replicate_length, exact]

theorem readBytes_laid (element : List Byte) {count place : Nat} (inside : place < count) :
    readBytes (List.replicate count element).flatten (place * element.length) element.length =
      some element := by
  have found : (List.range count)[place]? = some place := List.getElem?_range inside
  have piece := @readBytes_piece Nat (fun _ => element) element.length (fun _ => rfl) _ _ _ found []
  rw [List.append_nil, List.flatMap_def, List.map_const', List.length_range] at piece
  exact piece

end Lays

end BuildLinux.ByteStores
