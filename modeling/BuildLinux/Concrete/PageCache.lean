/-
Pages kept in the video memories of driver/v4l2/video2lcd/display/disp_manager.c.

A caller requests a page, draws it into the buffer it gets, marks the buffer
PS_GENERATED and puts it back; callers interleave in any order.  The allocator
owns the labels of a buffer, whoever holds it owns its contents.  The last stage
of GetVideoMem takes the first buffer of the list although it is in use, and
only that buffer is ever taken so.
-/

import BuildLinux.Concrete.VideoMemPool

namespace BuildLinux.Concrete.PageCache

open TransitionSystem VideoMemPool

variable {caller : Type}

/-- How far a caller is with the buffer it holds. -/
inductive Progress where
  | obtained
  | drawn
  | generated
  deriving DecidableEq, Repr

structure Holding where
  address : Nat
  iID : Int
  progress : Progress
  deriving DecidableEq, Repr

/-- The pool, the page last drawn into each buffer, and what each caller holds. -/
structure Cache (caller : Type) where
  pool : Pool
  page : Nat → Option Int
  holding : caller → Option Holding

/-- The request reaches the fourth stage of GetVideoMem. -/
def takesByForce (bCur : Bool) (pool : Pool) : Bool :=
  bCur && pool.all fun mem => !mem.isFree

inductive Action (caller : Type) where
  | get (who : caller) (iID : Int) (bCur : Bool) (result : Option Nat) (byForce : Bool)
  | draw (who : caller)
  | generate (who : caller)
  | put (who : caller)

inductive Step [DecidableEq caller] : Cache caller → Action caller → Cache caller → Prop where
  | get (cache : Cache caller) (who : caller) (iID : Int) (bCur : Bool)
      (idle : cache.holding who = none) :
      Step cache
        (.get who iID bCur (getVideoMem iID bCur cache.pool).1 (takesByForce bCur cache.pool))
        { cache with
          pool := (getVideoMem iID bCur cache.pool).2
          holding := Function.update cache.holding who
            ((getVideoMem iID bCur cache.pool).1.map fun address => ⟨address, iID, .obtained⟩) }
  | draw (cache : Cache caller) (who : caller) {held : Holding}
      (holds : cache.holding who = some held) (unfinished : held.progress ≠ .generated) :
      Step cache (.draw who)
        { cache with
          page := Function.update cache.page held.address (some held.iID)
          holding := Function.update cache.holding who (some { held with progress := .drawn }) }
  | generate (cache : Cache caller) (who : caller) {held : Holding}
      (holds : cache.holding who = some held) (isDrawn : held.progress = .drawn) :
      Step cache (.generate who)
        { cache with
          pool := drawPicture held.address .generated cache.pool
          holding := Function.update cache.holding who
            (some { held with progress := .generated }) }
  | put (cache : Cache caller) (who : caller) {held : Holding}
      (holds : cache.holding who = some held) (finished : held.progress = .generated) :
      Step cache (.put who)
        { cache with
          pool := putVideoMem held.address cache.pool
          holding := Function.update cache.holding who none }

def emptyCache (start : Pool) : Cache caller where
  pool := start
  page _ := none
  holding _ := none

def cacheSystem [DecidableEq caller] (start : Pool) : System (Cache caller) (Action caller) where
  Initial cache := cache = emptyCache start
  Step := Step

/-- Some request so far took the buffer while no buffer was free. -/
def TakenByForce (history : List (Action caller)) (address : Nat) : Prop :=
  ∃ who iID bCur, .get who iID bCur (some address) true ∈ history

/-! ### Labels and holders of the buffers not taken by force -/

/-- A holder's buffer is in use, has its label, and shows its page once drawn. -/
def Serves (cache : Cache caller) (held : Holding) : Prop :=
  ∃ mem ∈ cache.pool, mem.address = held.address ∧ mem.isFree = false ∧ mem.iID = held.iID ∧
    (held.progress ≠ .obtained → cache.page held.address = some held.iID)

structure Labelled (start : Pool) (history : List (Action caller)) (cache : Cache caller) :
    Prop where
  addresses : cache.pool.map VideoMem.address = start.map VideoMem.address
  served : ∀ who held, cache.holding who = some held → ¬TakenByForce history held.address →
    Serves cache held
  alone : ∀ who other held otherHeld, cache.holding who = some held →
    cache.holding other = some otherHeld → held.address = otherHeld.address →
    ¬TakenByForce history held.address → who = other
  shown : ∀ mem ∈ cache.pool, ¬TakenByForce history mem.address → mem.ePicState = .generated →
    cache.page mem.address = some mem.iID
  forced : ∀ address, TakenByForce history address → start.head?.map VideoMem.address = some address

theorem TakenByForce.later {history : List (Action caller)} {address : Nat}
    (taken : TakenByForce history address) (act : Action caller) :
    TakenByForce (act :: history) address := by
  obtain ⟨who, iID, bCur, inHistory⟩ := taken
  exact ⟨who, iID, bCur, List.mem_cons_of_mem act inHistory⟩

theorem same_mem {pool : Pool} (distinct : (pool.map VideoMem.address).Nodup)
    {left right : VideoMem} (inLeft : left ∈ pool) (inRight : right ∈ pool)
    (same : left.address = right.address) : left = right :=
  List.inj_on_of_nodup_map distinct inLeft inRight same

theorem start_labelled {mallocs : Nat → Bool} {iNum : Int} {start : Pool}
    (allocated : allocVideoMem mallocs iNum = (0, start)) :
    Labelled start [] (emptyCache start : Cache caller) := by
  constructor
  · rfl
  · intro who held holds
    cases holds
  · intro who other held otherHeld holds
    cases holds
  · intro mem inStart _ isGenerated
    rcases allocVideoMem_member allocated inStart with device | ⟨call, isCache⟩
    · rw [device] at isGenerated
      cases isGenerated
    · rw [isCache] at isGenerated
      cases isGenerated
  · rintro address ⟨who, iID, bCur, inHistory⟩
    cases inHistory

/-! ### What each step keeps -/

theorem taken_unforced {iID : Int} {bCur : Bool} {pool : Pool} {mem : VideoMem}
    {mark : VideoMem → VideoMem} (taken : Taken iID bCur pool mem mark)
    (unforced : takesByForce bCur pool = false) : mem.isFree = true := by
  cases taken with
  | same free _ => exact free
  | blank free _ _ => exact free
  | any free _ _ => exact free
  | forced cur _ noneFree =>
      have allUsed : (pool.all fun mem => !mem.isFree) = true := by
        simpa using noneFree
      rw [takesByForce, cur, allUsed] at unforced
      cases unforced

theorem taken_forced {iID : Int} {bCur : Bool} {pool : Pool} {mem : VideoMem}
    {mark : VideoMem → VideoMem} (taken : Taken iID bCur pool mem mark) (member : mem ∈ pool)
    (byForce : takesByForce bCur pool = true) : pool.head? = some mem := by
  obtain ⟨_, allUsed⟩ := Bool.and_eq_true_iff.mp byForce
  have used : mem.isFree = false := by
    simpa using List.all_eq_true.mp allUsed mem member
  cases taken with
  | same free _ => exact absurd (free.symm.trans used) (by decide)
  | blank free _ _ => exact absurd (free.symm.trans used) (by decide)
  | any free _ _ => exact absurd (free.symm.trans used) (by decide)
  | forced _ isHead _ => exact isHead

theorem taken_iID {iID : Int} {bCur : Bool} {pool : Pool} {mem : VideoMem}
    {mark : VideoMem → VideoMem} (taken : Taken iID bCur pool mem mark) :
    (mark mem).iID = iID := by
  cases taken with
  | same _ sameId => exact sameId
  | blank _ _ _ => rfl
  | any _ _ _ => rfl
  | forced _ _ _ => rfl

/-- A buffer handed out as generated was generated with the same label. -/
theorem taken_generated {iID : Int} {bCur : Bool} {pool : Pool} {mem : VideoMem}
    {mark : VideoMem → VideoMem} (taken : Taken iID bCur pool mem mark)
    (isGenerated : (mark mem).ePicState = .generated) :
    mem.ePicState = .generated ∧ mem.iID = iID := by
  cases taken with
  | same _ sameId => exact ⟨isGenerated, sameId⟩
  | blank _ isBlank _ =>
      change mem.ePicState = .generated at isGenerated
      rw [VideoMem.isBlank, isGenerated] at isBlank
      cases isBlank
  | any _ _ _ => cases isGenerated
  | forced _ _ _ => cases isGenerated

/-- Nobody holds a buffer that is taken while it is free. -/
theorem Labelled.not_held {start : Pool} (distinct : (start.map VideoMem.address).Nodup)
    {history : List (Action caller)} {cache : Cache caller}
    (labelled : Labelled start history cache) {mem : VideoMem} (member : mem ∈ cache.pool)
    (free : mem.isFree = true) {who : caller} {held : Holding}
    (holds : cache.holding who = some held) (unforced : ¬TakenByForce history held.address) :
    held.address ≠ mem.address := by
  intro same
  rw [← labelled.addresses] at distinct
  obtain ⟨own, inPool, ownAddress, used, _⟩ := labelled.served who held holds unforced
  rw [same_mem distinct inPool member (ownAddress.trans same), free] at used
  cases used

/-- The buffer that one caller gets or keeps is held by no other caller. -/
theorem alone_update [DecidableEq caller] {history : List (Action caller)} {act : Action caller}
    {holding : caller → Option Holding}
    (alone : ∀ who other held otherHeld, holding who = some held → holding other = some otherHeld →
      held.address = otherHeld.address → ¬TakenByForce history held.address → who = other)
    {who : caller} {next : Option Holding}
    (apart : ∀ after other held, next = some after → other ≠ who → holding other = some held →
      ¬TakenByForce (act :: history) held.address → held.address ≠ after.address) :
    ∀ left right leftHeld rightHeld, Function.update holding who next left = some leftHeld →
      Function.update holding who next right = some rightHeld →
      leftHeld.address = rightHeld.address → ¬TakenByForce (act :: history) leftHeld.address →
      left = right := by
  intro left right leftHeld rightHeld leftHolds rightHolds same unforced
  by_cases isLeft : left = who
  · by_cases isRight : right = who
    · exact isLeft.trans isRight.symm
    · rw [isLeft, Function.update_self] at leftHolds
      rw [Function.update_of_ne isRight] at rightHolds
      rw [same] at unforced
      exact absurd same.symm (apart leftHeld right rightHeld leftHolds isRight rightHolds unforced)
  · rw [Function.update_of_ne isLeft] at leftHolds
    by_cases isRight : right = who
    · rw [isRight, Function.update_self] at rightHolds
      exact absurd same (apart rightHeld left leftHeld rightHolds isLeft leftHolds unforced)
    · rw [Function.update_of_ne isRight] at rightHolds
      exact alone left right leftHeld rightHeld leftHolds rightHolds same
        fun earlier => unforced (earlier.later act)

theorem granted_labelled [DecidableEq caller] {start : Pool}
    (distinct : (start.map VideoMem.address).Nodup) {history : List (Action caller)}
    {cache : Cache caller} (labelled : Labelled start history cache) (who : caller) {iID : Int}
    {bCur : Bool} {before rest : Pool} {mem : VideoMem} {mark : VideoMem → VideoMem}
    (split : cache.pool = before ++ mem :: rest) (taken : Taken iID bCur cache.pool mem mark) :
    Labelled start
      (.get who iID bCur (some mem.address) (takesByForce bCur cache.pool) :: history)
      { cache with
        pool := before ++ mark mem :: rest
        holding := Function.update cache.holding who (some ⟨mem.address, iID, .obtained⟩) } := by
  have member : mem ∈ cache.pool := by
    rw [split]
    exact List.mem_append_right _ List.mem_cons_self
  have markedAddress : (mark mem).address = mem.address :=
    congrArg Prod.fst (taken.identity_mark mem)
  have stays {other : VideoMem} (inPool : other ∈ cache.pool)
      (apart : other.address ≠ mem.address) : other ∈ before ++ mark mem :: rest :=
    FirstFit.mem_marked (split ▸ inPool) (fun isMem => apart (congrArg VideoMem.address isMem)) _
  have notHeld {other : caller} {held : Holding} (holds : cache.holding other = some held)
      (unforced : ¬TakenByForce
        (.get who iID bCur (some mem.address) (takesByForce bCur cache.pool) :: history)
        held.address) : held.address ≠ mem.address := by
    intro same
    cases byForce : takesByForce bCur cache.pool with
    | true =>
        rw [byForce, same] at unforced
        exact unforced ⟨who, iID, bCur, List.mem_cons_self⟩
    | false =>
        exact labelled.not_held distinct member (taken_unforced taken byForce) holds
          (fun earlier => unforced (earlier.later _)) same
  constructor
  · rw [← labelled.addresses]
    simp [split, markedAddress]
  · intro other held holds unforced
    dsimp only at holds
    by_cases isWho : other = who
    · subst isWho
      rw [Function.update_self] at holds
      cases holds
      have used : (mark mem).isFree = false :=
        Bool.eq_false_iff.mpr fun free => taken.mark_used mem (beq_iff_eq.mp free)
      exact ⟨mark mem, by simp, markedAddress, used, taken_iID taken,
        fun started => absurd rfl started⟩
    · rw [Function.update_of_ne isWho] at holds
      obtain ⟨own, inPool, ownAddress, others⟩ :=
        labelled.served other held holds fun earlier => unforced (earlier.later _)
      have apart := notHeld holds unforced
      rw [← ownAddress] at apart
      exact ⟨own, stays inPool apart, ownAddress, others⟩
  · apply alone_update labelled.alone
    intro after other held isNext _ holds unforced
    cases isNext
    exact notHeld holds unforced
  · intro other inAfter unforced isGenerated
    rw [← labelled.addresses] at distinct
    rcases marked_members distinct split inAfter with isMarked | ⟨inPool, _⟩
    · rw [isMarked] at isGenerated unforced ⊢
      obtain ⟨wasGenerated, sameId⟩ := taken_generated taken isGenerated
      rw [markedAddress] at unforced ⊢
      rw [taken_iID taken, ← sameId]
      exact labelled.shown mem member (fun earlier => unforced (earlier.later _)) wasGenerated
    · exact labelled.shown other inPool (fun earlier => unforced (earlier.later _)) isGenerated
  · rintro address ⟨forcing, forcedId, forcedCur, inHistory⟩
    rcases List.mem_cons.mp inHistory with isGet | earlier
    · injection isGet with _ _ _ isResult isForced
      rw [← List.head?_map, ← labelled.addresses, List.head?_map,
        taken_forced taken member isForced.symm]
      exact isResult.symm
    · exact labelled.forced address ⟨forcing, forcedId, forcedCur, earlier⟩

/-- A step that takes no buffer by force, changes no label and no page of a
buffer, and gives no buffer to anyone. -/
theorem Labelled.later {start : Pool} {history : List (Action caller)} {cache : Cache caller}
    (labelled : Labelled start history cache) {act : Action caller}
    (unforced : ∀ who iID bCur address, act ≠ .get who iID bCur (some address) true) :
    Labelled start (act :: history) cache := by
  constructor
  · exact labelled.addresses
  · intro who held holds notForced
    exact labelled.served who held holds fun earlier => notForced (earlier.later act)
  · intro left right leftHeld rightHeld leftHolds rightHolds same notForced
    exact labelled.alone left right leftHeld rightHeld leftHolds rightHolds same
      fun earlier => notForced (earlier.later act)
  · intro mem inPool notForced
    exact labelled.shown mem inPool fun earlier => notForced (earlier.later act)
  · rintro address ⟨who, iID, bCur, inHistory⟩
    rcases List.mem_cons.mp inHistory with isAct | earlier
    · exact absurd isAct.symm (unforced who iID bCur address)
    · exact labelled.forced address ⟨who, iID, bCur, earlier⟩

theorem get_labelled [DecidableEq caller] {start : Pool}
    (distinct : (start.map VideoMem.address).Nodup) {history : List (Action caller)}
    {cache : Cache caller} (labelled : Labelled start history cache) {who : caller} (iID : Int)
    (bCur : Bool) (idle : cache.holding who = none) :
    Labelled start
      (.get who iID bCur (getVideoMem iID bCur cache.pool).1 (takesByForce bCur cache.pool)
        :: history)
      { cache with
        pool := (getVideoMem iID bCur cache.pool).2
        holding := Function.update cache.holding who
          ((getVideoMem iID bCur cache.pool).1.map fun address => ⟨address, iID, .obtained⟩) } := by
  rcases getVideoMem_cases iID bCur cache.pool with
    ⟨before, mem, rest, mark, split, taken, result⟩ | ⟨result, _, _⟩
  · rw [result]
    exact granted_labelled distinct labelled who split taken
  · have sameHolding : Function.update cache.holding who none = cache.holding := by
      rw [← idle]
      exact Function.update_eq_self who cache.holding
    rw [result]
    dsimp only [Option.map_none]
    rw [sameHolding]
    refine labelled.later fun other otherId otherCur address isGet => ?_
    injection isGet with _ _ _ isResult
    cases isResult

def adjust (address : Nat) (change : VideoMem → VideoMem) (pool : Pool) : Pool :=
  pool.map fun mem => if mem.address = address then change mem else mem

/-- A step of a holder changes its own buffer only, and keeps the label of it. -/
theorem holder_labelled [DecidableEq caller] {start : Pool}
    (distinct : (start.map VideoMem.address).Nodup) {history : List (Action caller)}
    {cache : Cache caller} (labelled : Labelled start history cache) {who : caller}
    {held : Holding} (holds : cache.holding who = some held) {act : Action caller}
    (notGet : ∀ other iID bCur result byForce, act ≠ .get other iID bCur result byForce)
    {change : VideoMem → VideoMem}
    (keeps : ∀ mem, (change mem).address = mem.address ∧ (change mem).iID = mem.iID)
    {page : Nat → Option Int}
    (elsewhere : ∀ address, address ≠ held.address → page address = cache.page address)
    {next : Option Holding}
    (continues : ∀ after, next = some after → after.address = held.address ∧
      after.iID = held.iID ∧ (∀ mem, (change mem).eVideoMemState = mem.eVideoMemState) ∧
      (after.progress ≠ .obtained → ¬TakenByForce history held.address →
        page held.address = some held.iID))
    (shows : ∀ mem ∈ cache.pool, mem.address = held.address → mem.iID = held.iID →
      ¬TakenByForce history held.address → (change mem).ePicState = .generated →
      page held.address = some held.iID) :
    Labelled start (act :: history)
      { pool := adjust held.address change cache.pool
        page := page
        holding := Function.update cache.holding who next } := by
  have distinctPool := distinct
  rw [← labelled.addresses] at distinctPool
  have own (unforced : ¬TakenByForce history held.address) :=
    labelled.served who held holds unforced
  have apart {other : caller} (notWho : other ≠ who) {otherHeld : Holding}
      (otherHolds : cache.holding other = some otherHeld)
      (unforced : ¬TakenByForce history otherHeld.address) :
      otherHeld.address ≠ held.address := by
    intro same
    exact notWho (labelled.alone other who otherHeld held otherHolds holds same unforced)
  constructor
  · rw [← labelled.addresses, adjust, List.map_map]
    apply List.map_congr_left
    intro mem _
    dsimp only [Function.comp_apply]
    split
    · exact (keeps mem).1
    · rfl
  · intro other after afterHolds unforced
    dsimp only at afterHolds
    have unforcedBefore : ¬TakenByForce history after.address :=
      fun earlier => unforced (earlier.later act)
    by_cases isWho : other = who
    · rw [isWho, Function.update_self] at afterHolds
      obtain ⟨sameAddress, sameId, keepsState, drawn⟩ := continues after afterHolds
      rw [sameAddress] at unforcedBefore
      obtain ⟨mem, member, memAddress, used, memId, _⟩ := own unforcedBefore
      refine ⟨change mem, ?_, ?_, ?_, ?_, fun started => ?_⟩
      · exact List.mem_map.mpr ⟨mem, member, if_pos memAddress⟩
      · rw [(keeps mem).1, memAddress, sameAddress]
      · rw [VideoMem.isFree, keepsState mem]
        exact used
      · rw [(keeps mem).2, memId, sameId]
      · rw [sameAddress, sameId]
        exact drawn started unforcedBefore
    · rw [Function.update_of_ne isWho] at afterHolds
      have notOwn := apart isWho afterHolds unforcedBefore
      obtain ⟨mem, member, memAddress, used, memId, drawn⟩ :=
        labelled.served other after afterHolds unforcedBefore
      rw [← memAddress] at notOwn
      refine ⟨mem, List.mem_map.mpr ⟨mem, member, if_neg notOwn⟩, memAddress, used, memId,
        fun started => ?_⟩
      rw [memAddress] at notOwn
      exact (elsewhere after.address notOwn).trans (drawn started)
  · apply alone_update labelled.alone
    intro after other otherHeld isNext notWho otherHolds unforced
    rw [(continues after isNext).1]
    exact apart notWho otherHolds fun earlier => unforced (earlier.later act)
  · intro other inAfter unforced isGenerated
    obtain ⟨mem, member, isOther⟩ := List.mem_map.mp inAfter
    by_cases isOwn : mem.address = held.address
    · rw [if_pos isOwn] at isOther
      rw [← isOther, (keeps mem).1, isOwn] at unforced ⊢
      rw [← isOther] at isGenerated
      have unforcedBefore : ¬TakenByForce history held.address :=
        fun earlier => unforced (earlier.later act)
      obtain ⟨mine, inPool, mineAddress, _, mineId, _⟩ := own unforcedBefore
      rw [same_mem distinctPool inPool member (mineAddress.trans isOwn.symm)] at mineId
      rw [(keeps mem).2, mineId]
      exact shows mem member isOwn mineId unforcedBefore isGenerated
    · rw [if_neg isOwn] at isOther
      rw [← isOther] at unforced isGenerated ⊢
      exact (elsewhere mem.address isOwn).trans
        (labelled.shown mem member (fun earlier => unforced (earlier.later act)) isGenerated)
  · rintro address ⟨forcing, iID, bCur, inHistory⟩
    rcases List.mem_cons.mp inHistory with isAct | earlier
    · exact absurd isAct.symm (notGet forcing iID bCur (some address) true)
    · exact labelled.forced address ⟨forcing, iID, bCur, earlier⟩

theorem adjust_id (address : Nat) (pool : Pool) : adjust address id pool = pool := by
  simp [adjust]

theorem draw_labelled [DecidableEq caller] {start : Pool}
    (distinct : (start.map VideoMem.address).Nodup) {history : List (Action caller)}
    {cache : Cache caller} (labelled : Labelled start history cache) {who : caller}
    {held : Holding} (holds : cache.holding who = some held) :
    Labelled start (.draw who :: history)
      { cache with
        page := Function.update cache.page held.address (some held.iID)
        holding := Function.update cache.holding who (some { held with progress := .drawn }) } := by
  have drawn : Function.update cache.page held.address (some held.iID) held.address =
      some held.iID := Function.update_self _ _ _
  have after : Labelled start (.draw who :: history)
      { pool := adjust held.address id cache.pool
        page := Function.update cache.page held.address (some held.iID)
        holding := Function.update cache.holding who (some { held with progress := .drawn }) } := by
    apply holder_labelled distinct labelled holds
    · intro other iID bCur result byForce same
      cases same
    · exact fun mem => ⟨rfl, rfl⟩
    · exact fun address notOwn => Function.update_of_ne notOwn _ _
    · intro after isAfter
      cases isAfter
      exact ⟨rfl, rfl, fun mem => rfl, fun _ _ => drawn⟩
    · exact fun mem _ _ _ _ _ => drawn
  rw [adjust_id] at after
  exact after

theorem generate_labelled [DecidableEq caller] {start : Pool}
    (distinct : (start.map VideoMem.address).Nodup) {history : List (Action caller)}
    {cache : Cache caller} (labelled : Labelled start history cache) {who : caller}
    {held : Holding} (holds : cache.holding who = some held) (isDrawn : held.progress = .drawn) :
    Labelled start (.generate who :: history)
      { cache with
        pool := drawPicture held.address .generated cache.pool
        holding := Function.update cache.holding who
          (some { held with progress := .generated }) } := by
  have drawn (unforced : ¬TakenByForce history held.address) :
      cache.page held.address = some held.iID := by
    obtain ⟨_, _, _, _, _, shows⟩ := labelled.served who held holds unforced
    apply shows
    rw [isDrawn]
    exact fun same => nomatch same
  apply holder_labelled distinct labelled holds
  · intro other iID bCur result byForce same
    cases same
  · exact fun mem => ⟨rfl, rfl⟩
  · exact fun address _ => rfl
  · intro after isAfter
    cases isAfter
    exact ⟨rfl, rfl, fun mem => rfl, fun _ => drawn⟩
  · exact fun mem _ _ _ unforced _ => drawn unforced

theorem release_generated {mem : VideoMem} (isGenerated : (release mem).ePicState = .generated) :
    mem.ePicState = .generated := by
  unfold release at isGenerated
  dsimp only at isGenerated
  split at isGenerated
  · cases isGenerated
  · exact isGenerated

theorem put_labelled [DecidableEq caller] {start : Pool}
    (distinct : (start.map VideoMem.address).Nodup) {history : List (Action caller)}
    {cache : Cache caller} (labelled : Labelled start history cache) {who : caller}
    {held : Holding} (holds : cache.holding who = some held) :
    Labelled start (.put who :: history)
      { cache with
        pool := putVideoMem held.address cache.pool
        holding := Function.update cache.holding who none } := by
  apply holder_labelled distinct labelled holds
  · intro other iID bCur result byForce same
    cases same
  · exact fun mem => ⟨rfl, rfl⟩
  · exact fun address _ => rfl
  · intro after isAfter
    cases isAfter
  · intro mem member isOwn sameId unforced isGenerated
    have shown := labelled.shown mem member
    rw [isOwn, sameId] at shown
    exact shown unforced (release_generated isGenerated)

theorem runs_labelled [DecidableEq caller] {mallocs : Nat → Bool} {iNum : Int} {start : Pool}
    (allocated : allocVideoMem mallocs iNum = (0, start)) {history : List (Action caller)}
    {cache : Cache caller} (run : Runs (cacheSystem start) history cache) :
    Labelled start history cache := by
  have distinct := allocVideoMem_distinct allocated
  apply run.invariant (Labelled start)
  · intro initial isInitial
    rw [isInitial]
    exact start_labelled allocated
  · intro history before act after _ labelled step
    cases step with
    | get who iID bCur idle => exact get_labelled distinct labelled iID bCur idle
    | draw who holds _ => exact draw_labelled distinct labelled holds
    | generate who holds isDrawn => exact generate_labelled distinct labelled holds isDrawn
    | put who holds _ => exact put_labelled distinct labelled holds

/-! ### Pages and holders -/

/-- A buffer that was never taken by force is held by one caller at most, and
shows the requested page whenever it is handed out as generated; only the first
buffer of the list is ever taken by force. -/
theorem pages_labelled [DecidableEq caller] {mallocs : Nat → Bool} {iNum : Int} {start : Pool}
    (allocated : allocVideoMem mallocs iNum = (0, start)) {history : List (Action caller)}
    {cache : Cache caller} (run : Runs (cacheSystem start) history cache) :
    (∀ iID bCur address after, getVideoMem iID bCur cache.pool = (some address, after) →
      ¬TakenByForce history address →
      ∀ mem ∈ after, mem.address = address → mem.ePicState = .generated →
        cache.page address = some iID) ∧
      (∀ who other held otherHeld, cache.holding who = some held →
        cache.holding other = some otherHeld → held.address = otherHeld.address →
        ¬TakenByForce history held.address → who = other) ∧
      ∀ address, TakenByForce history address →
        start.head?.map VideoMem.address = some address := by
  have labelled := runs_labelled allocated run
  refine ⟨?_, labelled.alone, labelled.forced⟩
  intro iID bCur address after request unforced mem inAfter isAddress isGenerated
  have distinct := allocVideoMem_distinct allocated
  rw [← labelled.addresses] at distinct
  rcases getVideoMem_cases iID bCur cache.pool with
    ⟨before, taken, rest, mark, split, takes, result⟩ | ⟨result, _, _⟩
  · cases request.symm.trans result
    have member : taken ∈ cache.pool := by
      rw [split]
      exact List.mem_append_right _ List.mem_cons_self
    rcases marked_members distinct split inAfter with isMarked | ⟨_, apart⟩
    · rw [isMarked] at isGenerated
      obtain ⟨wasGenerated, sameId⟩ := taken_generated takes isGenerated
      rw [← sameId]
      exact labelled.shown taken member unforced wasGenerated
    · exact absurd isAddress apart
  · cases request.symm.trans result

theorem cached_page :
    ∃ (history : List (Action Nat)) (cache : Cache Nat),
      Runs (cacheSystem onePool) history cache ∧ ¬TakenByForce history 1 ∧
        (∃ after, getVideoMem 5 false cache.pool = (some 1, after) ∧
          ∃ mem ∈ after, mem.address = 1 ∧ mem.ePicState = .generated) ∧
        cache.page 1 = some 5 := by
  have begun : Runs (cacheSystem onePool) [] (emptyCache onePool : Cache Nat) := Runs.start rfl
  have obtained := Runs.next begun (Step.get _ 0 5 false rfl)
  have drawn := Runs.next obtained (Step.draw _ 0 rfl (by decide))
  have generated := Runs.next drawn (Step.generate _ 0 rfl rfl)
  have run := Runs.next generated (Step.put _ 0 rfl rfl)
  have allocated : allocVideoMem (fun _ => true) 1 = (0, onePool) := rfl
  have unforced : ¬TakenByForce [.put 0, .generate 0, .draw 0,
      .get (0 : Nat) 5 false (some 1) false] 1 := by
    rintro ⟨who, iID, bCur, inHistory⟩
    simp at inHistory
  exact ⟨_, _, run, unforced, ⟨_, rfl, _, List.mem_cons_self, rfl, rfl⟩,
    (pages_labelled allocated run).1 5 false 1 _ rfl unforced _ List.mem_cons_self rfl rfl⟩

/-- Caller 1 takes the buffer that caller 0 draws page 5 into; the buffer keeps
the label 6, is put back by caller 0 and handed to caller 2 for page 6. -/
theorem page_mislabelled :
    ∃ (history : List (Action Nat)) (cache : Cache Nat),
      allocVideoMem (fun _ => true) 1 = (0, onePool) ∧
        Runs (cacheSystem onePool) (.get 2 6 false (some 1) false :: history) cache ∧
        (∃ mem ∈ cache.pool, mem.address = 1 ∧ mem.ePicState = .generated) ∧
        cache.page 1 = some 5 ∧
        (cache.holding 1).map Holding.address = some 1 ∧
        (cache.holding 2).map Holding.address = some 1 := by
  have begun : Runs (cacheSystem onePool) [] (emptyCache onePool : Cache Nat) := Runs.start rfl
  have first := Runs.next begun (Step.get _ 0 5 false rfl)
  have forced := Runs.next first (Step.get _ 1 6 true rfl)
  have later := Runs.next forced (Step.draw _ 1 rfl (by decide))
  have drawn := Runs.next later (Step.draw _ 0 rfl (by decide))
  have generated := Runs.next drawn (Step.generate _ 0 rfl rfl)
  have returned := Runs.next generated (Step.put _ 0 rfl rfl)
  have run := Runs.next returned (Step.get _ 2 6 false rfl)
  exact ⟨_, _, rfl, run, ⟨_, List.mem_cons_self, rfl, rfl⟩, rfl, rfl, rfl⟩

end BuildLinux.Concrete.PageCache
