/-
The pool of video memories of driver/v4l2/video2lcd/display/disp_manager.c.

AllocVideoMem builds a list of cache buffers with the device's frame buffer at
its end.  GetVideoMem searches the list in four stages, the last of which takes
a buffer by force; PutVideoMem frees one.  The users may change the picture
state of a buffer at any time.  A buffer is in use from a Get that returned it
until the next Put on it, which is read off the history of a run.
-/

import BuildLinux.FirstFit
import BuildLinux.TransitionSystem
import Mathlib.Data.List.Nodup

namespace BuildLinux.Concrete.VideoMemPool

open FirstFit TransitionSystem

/-- `E_VideoMemState`. -/
inductive VideoMemState where
  | free
  | usedForPrepare
  | usedForCur
  deriving DecidableEq, Repr

/-- `E_PicState`. -/
inductive PicState where
  | blank
  | generating
  | generated
  deriving DecidableEq, Repr

structure VideoMem where
  address : Nat
  iID : Int
  bDevFrameBuffer : Bool
  eVideoMemState : VideoMemState
  ePicState : PicState
  deriving DecidableEq, Repr

/-- The list from `g_ptVideoMemHead` on. -/
abbrev Pool := List VideoMem

/-! ### AllocVideoMem -/

def deviceMem (iNum : Int) : VideoMem where
  address := 0
  iID := 0
  bDevFrameBuffer := true
  eVideoMemState := if iNum ≠ 0 then .usedForCur else .free
  ePicState := .blank

def cacheMem (address : Nat) : VideoMem where
  address := address
  iID := 0
  bDevFrameBuffer := false
  eVideoMemState := .free
  ePicState := .blank

/-- The loop over `count` more cache buffers; `mallocs` tells which calls succeed. -/
def allocLoop (mallocs : Nat → Bool) : Nat → Nat → Pool → Int × Pool
  | 0, _, pool => (0, pool)
  | count + 1, call, pool =>
      if mallocs call then allocLoop mallocs count (call + 1) (cacheMem call :: pool)
      else (-1, pool)

def allocVideoMem (mallocs : Nat → Bool) (iNum : Int) : Int × Pool :=
  if mallocs 0 then allocLoop mallocs iNum.toNat 1 [deviceMem iNum] else (-1, [])

/-! ### GetVideoMem and PutVideoMem -/

def VideoMem.isFree (mem : VideoMem) : Bool := mem.eVideoMemState == .free

def VideoMem.isBlank (mem : VideoMem) : Bool := mem.ePicState == .blank

def usedState (bCur : Bool) : VideoMemState := if bCur then .usedForCur else .usedForPrepare

def takeSame (bCur : Bool) (mem : VideoMem) : VideoMem :=
  { mem with eVideoMemState := usedState bCur }

def takeBlank (iID : Int) (bCur : Bool) (mem : VideoMem) : VideoMem :=
  { mem with iID := iID, eVideoMemState := usedState bCur }

def takeAny (iID : Int) (bCur : Bool) (mem : VideoMem) : VideoMem :=
  { mem with iID := iID, ePicState := .blank, eVideoMemState := usedState bCur }

def getVideoMem (iID : Int) (bCur : Bool) (pool : Pool) : Option Nat × Pool :=
  match markFirst (fun mem => mem.isFree && mem.iID == iID) (takeSame bCur) pool with
  | some (mem, after) => (some mem.address, after)
  | none =>
      match markFirst (fun mem => mem.isFree && mem.isBlank) (takeBlank iID bCur) pool with
      | some (mem, after) => (some mem.address, after)
      | none =>
          match markFirst VideoMem.isFree (takeAny iID bCur) pool with
          | some (mem, after) => (some mem.address, after)
          | none =>
              if bCur then
                match pool with
                -- Without any allocation the head would be a null pointer here.
                | [] => (none, [])
                | head :: rest => (some head.address, takeAny iID bCur head :: rest)
              else (none, pool)

def release (mem : VideoMem) : VideoMem :=
  { mem with
    eVideoMemState := .free
    ePicState := if mem.iID == -1 then .blank else mem.ePicState }

def putVideoMem (address : Nat) (pool : Pool) : Pool :=
  pool.map fun mem => if mem.address = address then release mem else mem

/-! ### Runs of the users -/

inductive Action where
  | get (iID : Int) (bCur : Bool) (result : Option Nat)
  | put (address : Nat)
  | draw (address : Nat) (ePicState : PicState)
  deriving DecidableEq, Repr

structure Session where
  pool : Pool
  handedOut : List Nat

def drawPicture (address : Nat) (ePicState : PicState) (pool : Pool) : Pool :=
  pool.map fun mem => if mem.address = address then { mem with ePicState := ePicState } else mem

inductive Step : Session → Action → Session → Prop where
  | get (session : Session) (iID : Int) (bCur : Bool) :
      Step session (.get iID bCur (getVideoMem iID bCur session.pool).1)
        { pool := (getVideoMem iID bCur session.pool).2
          handedOut := (getVideoMem iID bCur session.pool).1.toList ++ session.handedOut }
  | put (session : Session) {address : Nat} (returned : address ∈ session.handedOut) :
      Step session (.put address) { session with pool := putVideoMem address session.pool }
  | draw (session : Session) (address : Nat) (ePicState : PicState) :
      Step session (.draw address ePicState)
        { session with pool := drawPicture address ePicState session.pool }

def poolSystem (start : Pool) : System Session Action where
  Initial session := session = { pool := start, handedOut := [] }
  Step := Step

/-- The latest Get or Put that concerns the buffer is a Get. -/
def InUse : List Action → Nat → Prop
  | [], _ => False
  | .get _ _ result :: earlier, address => result = some address ∨ InUse earlier address
  | .put released :: earlier, address => released ≠ address ∧ InUse earlier address
  | .draw _ _ :: earlier, address => InUse earlier address

/-! ### Which buffer a request takes -/

/-- Why a request takes a buffer, and what becomes of it. -/
inductive Taken (iID : Int) (bCur : Bool) (pool : Pool) (mem : VideoMem) :
    (VideoMem → VideoMem) → Prop where
  | same (free : mem.isFree = true) (sameId : mem.iID = iID) :
      Taken iID bCur pool mem (takeSame bCur)
  | blank (free : mem.isFree = true) (isBlank : mem.isBlank = true)
      (noneSame : ∀ other ∈ pool, other.isFree = true → other.iID ≠ iID) :
      Taken iID bCur pool mem (takeBlank iID bCur)
  | any (free : mem.isFree = true)
      (noneBlank : ∀ other ∈ pool, other.isFree = true → other.isBlank = false)
      (noneSame : ∀ other ∈ pool, other.isFree = true → other.iID ≠ iID) :
      Taken iID bCur pool mem (takeAny iID bCur)
  | forced (cur : bCur = true) (isHead : pool.head? = some mem)
      (noneFree : ∀ other ∈ pool, other.isFree = false) :
      Taken iID bCur pool mem (takeAny iID bCur)

theorem getVideoMem_cases (iID : Int) (bCur : Bool) (pool : Pool) :
    (∃ before mem rest mark, pool = before ++ mem :: rest ∧ Taken iID bCur pool mem mark ∧
      getVideoMem iID bCur pool = (some mem.address, before ++ mark mem :: rest)) ∨
    (getVideoMem iID bCur pool = (none, pool) ∧ (bCur = false ∨ pool = []) ∧
      ∀ other ∈ pool, other.isFree = false) := by
  unfold getVideoMem
  cases sameSearch : markFirst (fun mem => mem.isFree && mem.iID == iID) (takeSame bCur) pool with
  | some found =>
      obtain ⟨mem, after⟩ := found
      obtain ⟨wanted, before, rest, split, marked, _⟩ := markFirst_some sameSearch
      obtain ⟨free, sameId⟩ := Bool.and_eq_true_iff.mp wanted
      exact Or.inl ⟨before, mem, rest, _, split, .same free (beq_iff_eq.mp sameId),
        congrArg (Prod.mk _) marked⟩
  | none =>
      have noneSame : ∀ other ∈ pool, other.isFree = true → other.iID ≠ iID := by
        intro other member free sameId
        have refused := markFirst_none.mp sameSearch other member
        rw [free, sameId, Bool.true_and, beq_self_eq_true] at refused
        cases refused
      cases blankSearch : markFirst (fun mem => mem.isFree && mem.isBlank)
          (takeBlank iID bCur) pool with
      | some found =>
          obtain ⟨mem, after⟩ := found
          obtain ⟨wanted, before, rest, split, marked, _⟩ := markFirst_some blankSearch
          obtain ⟨free, isBlank⟩ := Bool.and_eq_true_iff.mp wanted
          exact Or.inl ⟨before, mem, rest, _, split, .blank free isBlank noneSame,
            congrArg (Prod.mk _) marked⟩
      | none =>
          have noneBlank : ∀ other ∈ pool, other.isFree = true → other.isBlank = false := by
            intro other member free
            have refused := markFirst_none.mp blankSearch other member
            rw [free, Bool.true_and] at refused
            exact refused
          cases anySearch : markFirst VideoMem.isFree (takeAny iID bCur) pool with
          | some found =>
              obtain ⟨mem, after⟩ := found
              obtain ⟨free, before, rest, split, marked, _⟩ := markFirst_some anySearch
              exact Or.inl ⟨before, mem, rest, _, split, .any free noneBlank noneSame,
                congrArg (Prod.mk _) marked⟩
          | none =>
              have noneFree := markFirst_none.mp anySearch
              cases bCur with
              | false => exact Or.inr ⟨rfl, Or.inl rfl, noneFree⟩
              | true =>
                  cases pool with
                  | nil => exact Or.inr ⟨rfl, Or.inr rfl, noneFree⟩
                  | cons head rest =>
                      exact Or.inl ⟨[], head, rest, _, rfl, .forced rfl rfl noneFree, rfl⟩

def identity (mem : VideoMem) : Nat × Bool := (mem.address, mem.bDevFrameBuffer)

theorem Taken.identity_mark {iID : Int} {bCur : Bool} {pool : Pool} {mem : VideoMem}
    {mark : VideoMem → VideoMem} (taken : Taken iID bCur pool mem mark) (other : VideoMem) :
    identity (mark other) = identity other := by
  cases taken <;> rfl

theorem Taken.mark_used {iID : Int} {bCur : Bool} {pool : Pool} {mem : VideoMem}
    {mark : VideoMem → VideoMem} (taken : Taken iID bCur pool mem mark) (other : VideoMem) :
    (mark other).eVideoMemState ≠ .free := by
  have used : (mark other).eVideoMemState = usedState bCur := by
    cases taken <;> rfl
  rw [used]
  cases bCur
  · exact fun same => nomatch same
  · exact fun same => nomatch same

/-! ### The pool at the start -/

structure Prepared (start : Pool) : Prop where
  distinct : (start.map VideoMem.address).Nodup
  cacheFirst : ∃ head rest, start = head :: rest ∧ head.bDevFrameBuffer = false
  device : ∀ mem ∈ start, mem.bDevFrameBuffer = true → mem.eVideoMemState ≠ .free
  cache : ∀ mem ∈ start, mem.bDevFrameBuffer = false → mem.eVideoMemState = .free

theorem allocLoop_pool {mallocs : Nat → Bool} {count call : Nat} {pool start : Pool}
    (allocated : allocLoop mallocs count call pool = (0, start)) :
    start = (List.range' call count).reverse.map cacheMem ++ pool := by
  induction count generalizing call pool with
  | zero =>
      cases allocated
      rfl
  | succ count ih =>
      rw [allocLoop] at allocated
      split at allocated
      · rw [ih allocated, List.range'_succ, List.reverse_cons, List.map_append, List.append_assoc]
        rfl
      · cases allocated

theorem allocVideoMem_pool {mallocs : Nat → Bool} {iNum : Int} {start : Pool}
    (allocated : allocVideoMem mallocs iNum = (0, start)) :
    start = (List.range' 1 iNum.toNat).reverse.map cacheMem ++ [deviceMem iNum] := by
  unfold allocVideoMem at allocated
  split at allocated
  · exact allocLoop_pool allocated
  · cases allocated

theorem allocVideoMem_member {mallocs : Nat → Bool} {iNum : Int} {start : Pool}
    (allocated : allocVideoMem mallocs iNum = (0, start)) {mem : VideoMem}
    (inStart : mem ∈ start) : mem = deviceMem iNum ∨ ∃ call, mem = cacheMem call := by
  rw [allocVideoMem_pool allocated] at inStart
  rcases List.mem_append.mp inStart with inCache | isDevice
  · obtain ⟨call, _, isMem⟩ := List.mem_map.mp inCache
    exact Or.inr ⟨call, isMem.symm⟩
  · exact Or.inl (List.mem_singleton.mp isDevice)

theorem allocVideoMem_distinct {mallocs : Nat → Bool} {iNum : Int} {start : Pool}
    (allocated : allocVideoMem mallocs iNum = (0, start)) :
    (start.map VideoMem.address).Nodup := by
  have addresses : start.map VideoMem.address = (List.range' 1 iNum.toNat).reverse ++ [0] := by
    rw [allocVideoMem_pool allocated, List.map_append, List.map_map]
    change (List.range' 1 iNum.toNat).reverse.map id ++ [0] = _
    rw [List.map_id]
  rw [addresses, List.nodup_append]
  refine ⟨List.nodup_reverse.mpr List.nodup_range', List.nodup_singleton 0, ?_⟩
  intro address inRange device isDevice same
  rw [List.mem_singleton.mp isDevice] at same
  have positive := (List.mem_range'_1.mp (List.mem_reverse.mp inRange)).1
  omega

theorem allocVideoMem_prepared {mallocs : Nat → Bool} {iNum : Int} (atLeastOne : 1 ≤ iNum)
    {start : Pool} (allocated : allocVideoMem mallocs iNum = (0, start)) : Prepared start := by
  constructor
  · exact allocVideoMem_distinct allocated
  · obtain ⟨count, isCount⟩ : ∃ count, iNum.toNat = count + 1 := ⟨iNum.toNat - 1, by omega⟩
    have isPool := allocVideoMem_pool allocated
    rw [isCount, List.range'_concat, List.reverse_append] at isPool
    exact ⟨_, _, isPool, rfl⟩
  · intro mem inStart isDevice
    rcases allocVideoMem_member allocated inStart with device | ⟨call, cache⟩
    · rw [device, deviceMem, if_pos (by omega)]
      exact fun same => nomatch same
    · rw [cache] at isDevice
      cases isDevice
  · intro mem inStart notDevice
    rcases allocVideoMem_member allocated inStart with device | ⟨call, cache⟩
    · rw [device] at notDevice
      cases notDevice
    · rw [cache]
      rfl

/-! ### The discipline along a run -/

/-- What holds of the pool after every history. -/
structure Disciplined (start : Pool) (history : List Action) (session : Session) : Prop where
  identities : session.pool.map identity = start.map identity
  device : ∀ mem ∈ session.pool, mem.bDevFrameBuffer = true → mem.eVideoMemState ≠ .free
  cache : ∀ mem ∈ session.pool, mem.bDevFrameBuffer = false →
    (mem.eVideoMemState = .free ↔ ¬InUse history mem.address)
  handed : ∀ address ∈ session.handedOut, (address, false) ∈ start.map identity

theorem identities_distinct {start : Pool} (distinct : (start.map VideoMem.address).Nodup)
    {pool : Pool} (identities : pool.map identity = start.map identity) :
    (pool.map VideoMem.address).Nodup := by
  have addresses := congrArg (List.map Prod.fst) identities
  rw [List.map_map, List.map_map] at addresses
  change pool.map VideoMem.address = start.map VideoMem.address at addresses
  rw [addresses]
  exact distinct

/-- An address tells whether it is the device's. -/
theorem same_address {start : Pool} (distinct : (start.map VideoMem.address).Nodup)
    {left right : Nat × Bool} (inLeft : left ∈ start.map identity)
    (inRight : right ∈ start.map identity) (same : left.1 = right.1) : left = right := by
  obtain ⟨first, inStart, isLeft⟩ := List.mem_map.mp inLeft
  obtain ⟨second, alsoInStart, isRight⟩ := List.mem_map.mp inRight
  rw [← isLeft, ← isRight] at same ⊢
  exact congrArg identity (List.inj_on_of_nodup_map distinct inStart alsoInStart same)

theorem Disciplined.member {start : Pool} {history : List Action} {session : Session}
    (disciplined : Disciplined start history session) {mem : VideoMem}
    (member : mem ∈ session.pool) : identity mem ∈ start.map identity := by
  rw [← disciplined.identities]
  exact List.mem_map_of_mem member

theorem start_disciplined {start : Pool} (prepared : Prepared start) :
    Disciplined start [] { pool := start, handedOut := [] } where
  identities := rfl
  device := prepared.device
  cache mem member notDevice :=
    ⟨fun _ inUse => inUse, fun _ => prepared.cache mem member notDevice⟩
  handed _ member := nomatch member

/-- The rest of the pool after one buffer of it was marked. -/
theorem marked_members {pool before rest : Pool} {mem marked other : VideoMem}
    (distinct : (pool.map VideoMem.address).Nodup) (split : pool = before ++ mem :: rest)
    (member : other ∈ before ++ marked :: rest) :
    other = marked ∨ other ∈ pool ∧ other.address ≠ mem.address := by
  subst split
  rw [List.map_append, List.map_cons, List.nodup_append] at distinct
  obtain ⟨_, inRest, apart⟩ := distinct
  rcases List.mem_append.mp member with inBefore | behind
  · refine Or.inr ⟨List.mem_append_left _ inBefore, ?_⟩
    exact apart _ (List.mem_map_of_mem inBefore) _ List.mem_cons_self
  · rcases List.mem_cons.mp behind with isMarked | later
    · exact Or.inl isMarked
    · refine Or.inr ⟨List.mem_append_right _ (List.mem_cons_of_mem mem later), fun same => ?_⟩
      rw [← same] at inRest
      exact (List.nodup_cons.mp inRest).1 (List.mem_map_of_mem later)

/-- The buffer a request takes is never the device's. -/
theorem taken_cache {start : Pool} (prepared : Prepared start) {history : List Action}
    {session : Session} (disciplined : Disciplined start history session) {iID : Int}
    {bCur : Bool} {mem : VideoMem} {mark : VideoMem → VideoMem} (member : mem ∈ session.pool)
    (taken : Taken iID bCur session.pool mem mark) : mem.bDevFrameBuffer = false := by
  cases isDevice : mem.bDevFrameBuffer with
  | false => rfl
  | true =>
      have used := disciplined.device mem member isDevice
      cases taken with
      | same free _ => exact absurd (beq_iff_eq.mp free) used
      | blank free _ _ => exact absurd (beq_iff_eq.mp free) used
      | any free _ _ => exact absurd (beq_iff_eq.mp free) used
      | forced _ isHead _ =>
          obtain ⟨head, rest, isStart, headCache⟩ := prepared.cacheFirst
          have heads := congrArg List.head? disciplined.identities
          rw [List.head?_map, isHead, isStart, List.map_cons, List.head?_cons] at heads
          have device := congrArg Prod.snd (Option.some.inj heads)
          change mem.bDevFrameBuffer = head.bDevFrameBuffer at device
          rw [isDevice, headCache] at device
          cases device

theorem get_disciplined {start : Pool} (prepared : Prepared start) {history : List Action}
    {session : Session} (disciplined : Disciplined start history session) (iID : Int)
    (bCur : Bool) :
    Disciplined start (.get iID bCur (getVideoMem iID bCur session.pool).1 :: history)
      { pool := (getVideoMem iID bCur session.pool).2
        handedOut := (getVideoMem iID bCur session.pool).1.toList ++ session.handedOut } := by
  rcases getVideoMem_cases iID bCur session.pool with
    ⟨before, mem, rest, mark, split, taken, result⟩ | ⟨result, _, _⟩
  · have member : mem ∈ session.pool := by
      rw [split]
      exact List.mem_append_right _ List.mem_cons_self
    have isCache := taken_cache prepared disciplined member taken
    have distinct := identities_distinct prepared.distinct disciplined.identities
    have sameMem := taken.identity_mark mem
    have markedDevice : (mark mem).bDevFrameBuffer = mem.bDevFrameBuffer :=
      congrArg Prod.snd sameMem
    have markedAddress : (mark mem).address = mem.address := congrArg Prod.fst sameMem
    rw [result]
    constructor
    · rw [← disciplined.identities, split, List.map_append, List.map_append, List.map_cons,
        List.map_cons, sameMem]
    · intro other inAfter isDevice
      rcases marked_members distinct split inAfter with isMarked | ⟨inPool, _⟩
      · rw [isMarked]
        exact taken.mark_used mem
      · exact disciplined.device other inPool isDevice
    · intro other inAfter notDevice
      rcases marked_members distinct split inAfter with isMarked | ⟨inPool, otherAddress⟩
      · rw [isMarked, markedAddress]
        exact ⟨fun free => absurd free (taken.mark_used mem),
          fun notUsed => absurd (Or.inl rfl) notUsed⟩
      · rw [disciplined.cache other inPool notDevice]
        refine not_congr ⟨Or.inr, ?_⟩
        rintro (isResult | inUse)
        · exact absurd (Option.some.inj isResult).symm otherAddress
        · exact inUse
    · intro address inHanded
      rcases List.mem_cons.mp inHanded with isResult | earlier
      · have inStart := disciplined.member member
        rw [isResult, ← isCache]
        exact inStart
      · exact disciplined.handed address earlier
  · rw [result]
    constructor
    · exact disciplined.identities
    · exact disciplined.device
    · intro other inPool notDevice
      rw [disciplined.cache other inPool notDevice]
      refine not_congr ⟨Or.inr, ?_⟩
      rintro (isResult | inUse)
      · cases isResult
      · exact inUse
    · exact disciplined.handed

/-- Changing the buffers at one address keeps who they are. -/
theorem update_identities (address : Nat) (change : VideoMem → VideoMem)
    (keeps : ∀ mem, identity (change mem) = identity mem) (pool : Pool) :
    (pool.map fun mem => if mem.address = address then change mem else mem).map identity =
      pool.map identity := by
  rw [List.map_map]
  refine List.map_congr_left fun mem _ => ?_
  change identity (if mem.address = address then change mem else mem) = identity mem
  split
  · exact keeps mem
  · rfl

theorem put_disciplined {start : Pool} (prepared : Prepared start) {history : List Action}
    {session : Session} (disciplined : Disciplined start history session) {address : Nat}
    (returned : address ∈ session.handedOut) :
    Disciplined start (.put address :: history)
      { session with pool := putVideoMem address session.pool } := by
  have isCache := disciplined.handed address returned
  constructor
  · exact (update_identities address release (fun _ => rfl) session.pool).trans disciplined.identities
  · intro other inAfter isDevice
    obtain ⟨mem, inPool, isOther⟩ := List.mem_map.mp inAfter
    rw [← isOther] at isDevice ⊢
    by_cases released : mem.address = address
    · -- The address of a buffer that was handed out is no device's.
      rw [if_pos released] at isDevice
      have same := same_address prepared.distinct (disciplined.member inPool) isCache released
      have notDevice : mem.bDevFrameBuffer = false := congrArg Prod.snd same
      exact absurd (isDevice.symm.trans notDevice) (by decide)
    · rw [if_neg released] at isDevice ⊢
      exact disciplined.device mem inPool isDevice
  · intro other inAfter notDevice
    obtain ⟨mem, inPool, isOther⟩ := List.mem_map.mp inAfter
    rw [← isOther] at notDevice ⊢
    by_cases released : mem.address = address
    · rw [if_pos released]
      exact ⟨fun _ inUse => inUse.1 released.symm, fun _ => rfl⟩
    · rw [if_neg released] at notDevice ⊢
      rw [disciplined.cache mem inPool notDevice]
      exact not_congr ⟨fun inUse => ⟨Ne.symm released, inUse⟩, And.right⟩
  · exact disciplined.handed

theorem draw_disciplined {start : Pool} {history : List Action} {session : Session}
    (disciplined : Disciplined start history session) (address : Nat) (ePicState : PicState) :
    Disciplined start (.draw address ePicState :: history)
      { session with pool := drawPicture address ePicState session.pool } := by
  have drawn {other : VideoMem} (inAfter : other ∈ drawPicture address ePicState session.pool) :
      ∃ mem ∈ session.pool, identity mem = identity other ∧
        mem.eVideoMemState = other.eVideoMemState := by
    obtain ⟨mem, inPool, isOther⟩ := List.mem_map.mp inAfter
    refine ⟨mem, inPool, ?_⟩
    rw [← isOther]
    split
    · exact ⟨rfl, rfl⟩
    · exact ⟨rfl, rfl⟩
  constructor
  · exact (update_identities address (fun mem => { mem with ePicState := ePicState })
      (fun _ => rfl) session.pool).trans disciplined.identities
  · intro other inAfter isDevice
    obtain ⟨mem, inPool, same, state⟩ := drawn inAfter
    rw [← state]
    exact disciplined.device mem inPool ((congrArg Prod.snd same).trans isDevice)
  · intro other inAfter notDevice
    obtain ⟨mem, inPool, same, state⟩ := drawn inAfter
    have sameAddress : mem.address = other.address := congrArg Prod.fst same
    rw [← state, ← sameAddress]
    exact disciplined.cache mem inPool ((congrArg Prod.snd same).trans notDevice)
  · exact disciplined.handed

theorem runs_disciplined {start : Pool} (prepared : Prepared start) {history : List Action}
    {session : Session} (run : Runs (poolSystem start) history session) :
    Disciplined start history session := by
  refine run.invariant (Disciplined start) ?_ ?_
  · intro initial isInitial
    rw [isInitial]
    exact start_disciplined prepared
  · intro history before act after _ disciplined step
    cases step with
    | get iID bCur => exact get_disciplined prepared disciplined iID bCur
    | put returned => exact put_disciplined prepared disciplined returned
    | draw address ePicState => exact draw_disciplined disciplined address ePicState

/-- A cache buffer that is in use by no one. -/
def FreeCache (history : List Action) (mem : VideoMem) : Prop :=
  mem.bDevFrameBuffer = false ∧ ¬InUse history mem.address

theorem Disciplined.free_iff {start : Pool} {history : List Action} {session : Session}
    (disciplined : Disciplined start history session) {mem : VideoMem}
    (member : mem ∈ session.pool) : mem.isFree = true ↔ FreeCache history mem := by
  rw [VideoMem.isFree, beq_iff_eq]
  constructor
  · intro free
    cases isDevice : mem.bDevFrameBuffer with
    | true => exact absurd free (disciplined.device mem member isDevice)
    | false => exact ⟨isDevice, (disciplined.cache mem member isDevice).mp free⟩
  · rintro ⟨notDevice, notUsed⟩
    exact (disciplined.cache mem member notDevice).mpr notUsed

theorem Disciplined.pool_nonempty {start : Pool} (prepared : Prepared start)
    {history : List Action} {session : Session}
    (disciplined : Disciplined start history session) : session.pool ≠ [] := by
  intro empty
  obtain ⟨head, rest, isStart, _⟩ := prepared.cacheFirst
  have identities := disciplined.identities
  rw [empty, isStart] at identities
  cases identities

/-- A buffer taken by force was taken because no cache buffer was free. -/
theorem taken_free {start : Pool} {history : List Action} {session : Session}
    (disciplined : Disciplined start history session) {iID : Int} {bCur : Bool}
    {mem : VideoMem} {mark : VideoMem → VideoMem} (member : mem ∈ session.pool)
    (taken : Taken iID bCur session.pool mem mark) :
    FreeCache history mem ∨
      bCur = true ∧ ∀ other ∈ session.pool, ¬FreeCache history other := by
  cases taken with
  | same free _ => exact Or.inl ((disciplined.free_iff member).mp free)
  | blank free _ _ => exact Or.inl ((disciplined.free_iff member).mp free)
  | any free _ _ => exact Or.inl ((disciplined.free_iff member).mp free)
  | forced cur _ noneFree =>
      refine Or.inr ⟨cur, fun other inPool freeOther => ?_⟩
      have free := (disciplined.free_iff inPool).mpr freeOther
      rw [noneFree other inPool] at free
      cases free

/-- A free buffer with the requested id is taken as it is. -/
theorem taken_same {start : Pool} {history : List Action} {session : Session}
    (disciplined : Disciplined start history session) {iID : Int} {bCur : Bool}
    {mem : VideoMem} {mark : VideoMem → VideoMem}
    (taken : Taken iID bCur session.pool mem mark) {other : VideoMem}
    (inPool : other ∈ session.pool) (free : FreeCache history other) (sameId : other.iID = iID) :
    mem.iID = iID ∧ mark = takeSame bCur := by
  have isFree := (disciplined.free_iff inPool).mpr free
  cases taken with
  | same _ sameId => exact ⟨sameId, rfl⟩
  | blank _ _ noneSame => exact absurd sameId (noneSame other inPool isFree)
  | any _ _ noneSame => exact absurd sameId (noneSame other inPool isFree)
  | forced _ _ noneFree =>
      rw [noneFree other inPool] at isFree
      cases isFree

/-- Without one, a free blank buffer is taken as long as there is any. -/
theorem taken_blank {start : Pool} {history : List Action} {session : Session}
    (disciplined : Disciplined start history session) {iID : Int} {bCur : Bool}
    {mem : VideoMem} {mark : VideoMem → VideoMem} (member : mem ∈ session.pool)
    (taken : Taken iID bCur session.pool mem mark)
    (noneSame : ∀ other ∈ session.pool, FreeCache history other → other.iID ≠ iID)
    {other : VideoMem} (inPool : other ∈ session.pool) (free : FreeCache history other)
    (isBlank : other.ePicState = .blank) :
    FreeCache history mem ∧ mem.ePicState = .blank := by
  have isFree := (disciplined.free_iff inPool).mpr free
  cases taken with
  | same memFree sameId =>
      exact absurd sameId (noneSame mem member ((disciplined.free_iff member).mp memFree))
  | blank memFree memBlank _ =>
      exact ⟨(disciplined.free_iff member).mp memFree, beq_iff_eq.mp memBlank⟩
  | any _ noneBlank _ =>
      have refused := noneBlank other inPool isFree
      rw [VideoMem.isBlank, isBlank] at refused
      cases refused
  | forced _ _ noneFree =>
      rw [noneFree other inPool] at isFree
      cases isFree

/-- The discipline of the pool for every request after every history. -/
theorem pool_discipline {mallocs : Nat → Bool} {iNum : Int} (atLeastOne : 1 ≤ iNum)
    {start : Pool} (allocated : allocVideoMem mallocs iNum = (0, start))
    {history : List Action} {session : Session} (run : Runs (poolSystem start) history session)
    (iID : Int) (bCur : Bool) {result : Option Nat} {after : Pool}
    (request : getVideoMem iID bCur session.pool = (result, after)) :
    session.pool.map VideoMem.address = start.map VideoMem.address ∧
      (bCur = false →
        (∀ address, result = some address → ¬InUse history address) ∧
        (result = none ↔ ∀ mem ∈ session.pool, ¬FreeCache history mem)) ∧
      (bCur = true → result ≠ none) ∧
      (∀ mem ∈ session.pool, result = some mem.address → mem.bDevFrameBuffer = false) ∧
      ((∃ mem ∈ session.pool, FreeCache history mem ∧ mem.iID = iID) →
        ∃ mem ∈ session.pool, result = some mem.address ∧ mem.iID = iID ∧
          { mem with eVideoMemState := usedState bCur } ∈ after) ∧
      ((∀ mem ∈ session.pool, FreeCache history mem → mem.iID ≠ iID) →
        (∃ mem ∈ session.pool, FreeCache history mem ∧ mem.ePicState = .blank) →
        (∃ mem ∈ session.pool, result = some mem.address ∧ FreeCache history mem ∧
          mem.ePicState = .blank) ∧
        ∀ mem ∈ session.pool, FreeCache history mem → mem.ePicState = .generated →
          mem ∈ after) := by
  have prepared := allocVideoMem_prepared atLeastOne allocated
  have disciplined := runs_disciplined prepared run
  have addresses := congrArg (List.map Prod.fst) disciplined.identities
  rw [List.map_map, List.map_map] at addresses
  refine ⟨addresses, ?_⟩
  rcases getVideoMem_cases iID bCur session.pool with
    ⟨before, mem, rest, mark, split, taken, isRequest⟩ | ⟨isRequest, refused, noneFree⟩
  · cases request.symm.trans isRequest
    have member : mem ∈ session.pool := by
      rw [split]
      exact List.mem_append_right _ List.mem_cons_self
    have free := taken_free disciplined member taken
    have isCache := taken_cache prepared disciplined member taken
    refine ⟨fun notCur => ?_, fun _ => Option.some_ne_none _, ?_, ?_, ?_⟩
    · have freeMem := free.resolve_right fun forced => by
        rw [notCur] at forced
        exact Bool.false_ne_true forced.1
      refine ⟨fun address isResult => ?_, fun absent => (nomatch absent), fun noneFree => ?_⟩
      · rw [← Option.some.inj isResult]
        exact freeMem.2
      · exact absurd freeMem (noneFree mem member)
    · intro other inPool isResult
      have same := same_address prepared.distinct (disciplined.member inPool)
        (disciplined.member member) (Option.some.inj isResult).symm
      exact (congrArg Prod.snd same).trans isCache
    · rintro ⟨other, inPool, freeOther, sameId⟩
      obtain ⟨memId, isMark⟩ := taken_same disciplined taken inPool freeOther sameId
      refine ⟨mem, member, rfl, memId, ?_⟩
      rw [isMark]
      exact List.mem_append_right _ List.mem_cons_self
    · rintro noneSame ⟨other, inPool, freeOther, isBlank⟩
      obtain ⟨freeMem, memBlank⟩ :=
        taken_blank disciplined member taken noneSame inPool freeOther isBlank
      refine ⟨⟨mem, member, rfl, freeMem, memBlank⟩, ?_⟩
      intro generated inSession _ isGenerated
      rw [split] at inSession
      apply FirstFit.mem_marked inSession
      rintro rfl
      rw [memBlank] at isGenerated
      cases isGenerated
  · cases request.symm.trans isRequest
    have noneCache : ∀ other ∈ session.pool, ¬FreeCache history other := by
      intro other inPool freeOther
      have isFree := (disciplined.free_iff inPool).mpr freeOther
      rw [noneFree other inPool] at isFree
      cases isFree
    refine ⟨fun _ => ⟨fun address absent => ?_, fun _ => noneCache, fun _ => rfl⟩, ?_, ?_, ?_, ?_⟩
    · cases absent
    · rintro cur _
      rcases refused with notCur | empty
      · exact absurd (cur.symm.trans notCur) (by decide)
      · exact disciplined.pool_nonempty prepared empty
    · intro other _ absent
      cases absent
    · rintro ⟨other, inPool, freeOther, _⟩
      exact absurd freeOther (noneCache other inPool)
    · rintro _ ⟨other, inPool, freeOther, _⟩
      exact absurd freeOther (noneCache other inPool)

def onePool : Pool := [cacheMem 1, deviceMem 1]

def onePage : Session where
  pool := [takeBlank 5 false (cacheMem 1), deviceMem 1]
  handedOut := [1]

theorem pool_exhausted :
    allocVideoMem (fun _ => true) 1 = (0, onePool) ∧
      Runs (poolSystem onePool) [.get 5 false (some 1)] onePage ∧
      ∀ mem ∈ onePage.pool, ¬FreeCache [.get 5 false (some 1)] mem := by
  have run : Runs (poolSystem onePool) [.get 5 false (some 1)] onePage :=
    Runs.next (Runs.start rfl) (Step.get { pool := onePool, handedOut := [] } 5 false)
  have request : getVideoMem 6 false onePage.pool = (none, onePage.pool) := rfl
  have atLeastOne : (1 : Int) ≤ 1 := Int.le_refl 1
  have allocated : allocVideoMem (fun _ => true) 1 = (0, onePool) := rfl
  have discipline := pool_discipline atLeastOne allocated run 6 false request
  exact ⟨rfl, run, (discipline.2.1 rfl).2.mp rfl⟩

end BuildLinux.Concrete.VideoMemPool
