import SwagOS.DataStructures.LinkedList.Headed
import SwagOS.Mem.ChunkedFrames.Leak

/-!
# The use counts of the chunks

`create_new_chunked_frame` clears the bitmap of a record and not its use count, which goes on
from what the memory held.  From then on the count and the bitmap change together, so that
they agree exactly if that was zero.  A chunk whose count drops to zero takes the newer chunks
off the list with it.
-/

namespace SwagOS.DataStructures.Dll

open SwagOS.Lib

variable {α : Type} {dll : Dll α}

theorem Stacked.headed (stacked : dll.Stacked) : dll.Headed where
  inside := fun _ listed => stacked.listed_lt listed
  prev := fun j listed => stacked.prev j (stacked.listed_lt listed)
  next := fun j listed => stacked.next j (stacked.listed_lt listed)
  last := stacked.last

theorem From.modify {link : Link} {i j : Nat} {write : α → α} :
    (dll.modify i write).From link j ↔ dll.From link j := by
  constructor
  · intro met
    induction met with
    | here => exact .here
    | next _ inductionHypothesis =>
      rw [modify_next] at inductionHypothesis
      exact .next inductionHypothesis
  · intro met
    induction met with
    | here => exact .here
    | @next k j met inductionHypothesis =>
      refine .next ?_
      rw [modify_next]
      exact inductionHypothesis

theorem listed_modify {i j : Nat} {write : α → α} :
    (dll.modify i write).Listed j ↔ dll.Listed j := From.modify

end SwagOS.DataStructures.Dll

namespace SwagOS.Mem

open SwagOS.Lib SwagOS.DataStructures

namespace HugeChunk

variable {chunk : HugeChunk} {i : Nat}

def usedPages (chunk : HugeChunk) : Finset Nat := Bitmap.setBits 4 500 chunk.frameBitmap

theorem mem_usedPages : i ∈ chunk.usedPages ↔ i < 500 ∧ chunk.used i = true := Bitmap.mem_setBits

theorem card_usedPages_le (chunk : HugeChunk) : chunk.usedPages.card ≤ 500 :=
  Bitmap.card_setBits_le 500 chunk.frameBitmap

theorem usedPages_take (page : i < 500) : (chunk.take i).usedPages = insert i chunk.usedPages :=
  Bitmap.setBits_set (by decide) (by decide) page chunk.frameBitmap

theorem usedPages_release : (chunk.release i).usedPages = chunk.usedPages.erase i :=
  Bitmap.setBits_clear (by decide) (by decide) 500 chunk.frameBitmap i

theorem usedPages_start (startAddress : Nat) (chunk : HugeChunk) :
    (start startAddress chunk).usedPages = {0} := by
  ext j
  rw [mem_usedPages, Finset.mem_singleton]
  constructor
  · rintro ⟨page, isUsed⟩
    rw [used_start startAddress chunk page] at isUsed
    exact of_decide_eq_true isUsed
  · rintro rfl
    have page : 0 < 500 := by decide
    exact ⟨page, by rw [used_start startAddress chunk page, decide_eq_true rfl]⟩

def surplus (chunk : HugeChunk) : BitVec 32 :=
  chunk.useCount - BitVec.ofNat 32 chunk.usedPages.card

theorem surplus_take (page : i < 500) (clear : chunk.used i = false) :
    (chunk.take i).surplus = chunk.surplus := by
  have fresh : i ∉ chunk.usedPages := by
    rw [mem_usedPages, clear]
    exact fun isUsed => Bool.noConfusion isUsed.2
  unfold surplus
  rw [usedPages_take page, Finset.card_insert_of_notMem fresh, BitVec.ofNat_add]
  have count : (chunk.take i).useCount = chunk.useCount + 1#32 := rfl
  rw [count]
  bv_omega

theorem surplus_release (isUsed : i ∈ chunk.usedPages) :
    (chunk.release i).surplus = chunk.surplus := by
  have count : (chunk.release i).useCount = chunk.useCount - 1#32 := rfl
  have card := Finset.card_erase_add_one isUsed
  unfold surplus
  rw [usedPages_release, count, ← card, BitVec.ofNat_add]
  bv_omega

theorem surplus_start (startAddress : Nat) (chunk : HugeChunk) :
    (start startAddress chunk).surplus = chunk.useCount := by
  have count : (start startAddress chunk).useCount = chunk.useCount + 1#32 := rfl
  unfold surplus
  rw [usedPages_start, Finset.card_singleton, count]
  bv_omega

theorem surplus_eq_zero : chunk.surplus = 0#32 ↔ chunk.useCount.toNat = chunk.usedPages.card := by
  have bound := card_usedPages_le chunk
  unfold surplus
  bv_omega

theorem freeIndex_none (right : chunk.useCount.toNat = chunk.usedPages.card) :
    chunk.freeIndex = none ↔ chunk.usedPages.card = 500 := by
  have bound := card_usedPages_le chunk
  constructor
  · intro missed
    by_contra notFull
    have room : chunk.useCount < 500#32 := by bv_omega
    -- Some page is not in use, and the scan comes to it
    obtain ⟨i, page, notUsed⟩ : ∃ i ∈ Finset.range 500, i ∉ chunk.usedPages := by
      apply Finset.exists_mem_notMem_of_card_lt_card
      rw [Finset.card_range]
      omega
    unfold freeIndex at missed
    rw [if_pos room, List.find?_eq_none] at missed
    have passed := missed i (List.mem_range.mpr (Finset.mem_range.mp page))
    have bit : i % 4 < 32 := by omega
    rw [beq_iff_eq, Bitmap.shiftRight_and_one_eq_zero bit] at passed
    have isUsed : chunk.used i = true := Bool.eq_true_of_not_eq_false passed
    exact notUsed (mem_usedPages.mpr ⟨Finset.mem_range.mp page, isUsed⟩)
  · intro full
    have noRoom : ¬chunk.useCount < 500#32 := by bv_omega
    unfold freeIndex
    rw [if_neg noRoom]

theorem release_useCount (right : chunk.useCount.toNat = chunk.usedPages.card) (i : Nat) :
    (chunk.release i).useCount = 0#32 ↔ chunk.usedPages.card = 1 := by
  have bound := card_usedPages_le chunk
  have count : (chunk.release i).useCount = chunk.useCount - 1#32 := rfl
  rw [count]
  bv_omega

end HugeChunk

theorem SmallPageManager.tryFreeChunkedFrame_listed {spm next : SmallPageManager} {addr : Nat}
    {freed : Bool} (done : spm.tryFreeChunkedFrame addr = .ok (freed, next)) :
    (next = spm ∧ ∀ c, spm.Listed c → spm.entryCount ≠ 0 → spm.Stacked →
      HugeChunk.holds addr (spm.records c).data = none) ∨
    ∃ c i, spm.Listed c ∧ i = (pgRoundDown addr - spm.startOf c) / pgSize ∧
      HugeChunk.holds addr (spm.records c).data = some () ∧
      next = if ((spm.records c).data.release i).useCount = 0#32
        then (spm.modify c fun data => data.release i).removeDllEntry c
        else spm.modify c fun data => data.release i := by
  unfold tryFreeChunkedFrame at done
  split at done
  next some =>
    obtain ⟨found, search, done⟩ := Outcome.bind_ok.mp done
    cases found with
    | none =>
      cases done
      refine .inl ⟨rfl, fun c listed _ stacked => ?_⟩
      rcases stacked.search_spec (HugeChunk.holds addr) with ⟨-, none⟩ | ⟨d, ⟨⟩, found, -⟩
      · exact none c listed
      · cases search.symm.trans found
    | some found =>
      obtain ⟨c, ⟨⟩⟩ := found
      obtain ⟨met, holds⟩ := Dll.search_found search
      refine .inr ⟨c, _, met, rfl, holds, ?_⟩
      let i := (pgRoundDown addr - spm.startOf c) / pgSize
      have data : ((spm.modify c fun data => data.release i).records c).data =
          (spm.records c).data.release i := by rw [Dll.modify_data, if_pos rfl]
      by_cases zero : ((spm.records c).data.release i).useCount = 0#32
      · cases (if_pos (data ▸ zero)).symm.trans done
        rw [if_pos zero]
        rfl
      · cases (if_neg (data ▸ zero)).symm.trans done
        rw [if_neg zero]
        rfl
  next none =>
    cases done
    refine .inl ⟨rfl, fun c listed some _ => ?_⟩
    have null : spm.first = .null := by
      by_contra notNull
      exact none ⟨some, notNull⟩
    unfold Dll.Listed at listed
    rw [null] at listed
    cases listed

namespace FrameManagers

def chunk (m : FrameManagers) (c : Nat) : HugeChunk := (m.manager4kb.records c).data

theorem Valid.allocated_le {m : FrameManagers} (valid : m.Valid) :
    m.manager4kb.allocated ≤ frameBound := by
  have owned : ∀ c, ∃ k, c < m.manager4kb.allocated →
      k < frameBound ∧ m.manager4kb.startOf c = k * hugePgSize := by
    intro c
    by_cases inside : c < m.manager4kb.allocated
    · obtain ⟨k, below, start, -⟩ := valid.owned c inside
      exact ⟨k, fun _ => ⟨below, start⟩⟩
    · exact ⟨0, fun never => absurd never inside⟩
  choose number frame using owned
  have range := Finset.card_le_card_of_injOn number
    (s := Finset.range m.manager4kb.allocated) (t := Finset.range frameBound)
    (fun c inside => by
      simp only [Finset.coe_range, Set.mem_Iio] at inside ⊢
      exact (frame c inside).1)
    (fun c inside d inside' same => by
      simp only [Finset.coe_range, Set.mem_Iio] at inside inside'
      refine valid.distinct c inside d inside' ?_
      rw [(frame c inside).2, (frame d inside').2, same])
  rwa [Finset.card_range, Finset.card_range] at range

theorem Valid.holds_unique {m : FrameManagers} (valid : m.Valid) {c d addr : Nat}
    (first : c < m.manager4kb.allocated) (second : d < m.manager4kb.allocated)
    (holds : HugeChunk.holds addr (m.chunk c) = some ())
    (holds' : HugeChunk.holds addr (m.chunk d) = some ()) : c = d := by
  obtain ⟨k, -, start, -⟩ := valid.owned c first
  obtain ⟨l, -, start', -⟩ := valid.owned d second
  obtain ⟨lower, upper⟩ := HugeChunk.holds_some holds
  obtain ⟨lower', upper'⟩ := HugeChunk.holds_some holds'
  have same : k = l := by
    change m.manager4kb.startOf c ≤ addr at lower
    change addr < m.manager4kb.startOf c + hugePgSize at upper
    change m.manager4kb.startOf d ≤ addr at lower'
    change addr < m.manager4kb.startOf d + hugePgSize at upper'
    rw [start] at lower upper
    rw [start'] at lower' upper'
    unfold hugePgSize at lower upper lower' upper'
    omega
  exact valid.distinct c first d second (by rw [start, start', same])

/-- The surplus of each chunk is what its memory held as its use count. -/
structure Ledger (records : Nat → Cell HugeChunk) (m : FrameManagers) : Prop where
  surplus : ∀ c < m.manager4kb.allocated, (m.chunk c).surplus = (records c).data.useCount
  fresh : ∀ c, m.manager4kb.allocated ≤ c → m.chunk c = (records c).data
  entries : m.manager4kb.entryCount = m.manager4kb.allocated

variable {records : Nat → Cell HugeChunk} {m next : FrameManagers}

theorem Ledger.modify (ledger : m.Ledger records) {c : Nat} {write : HugeChunk → HugeChunk}
    (inside : c < m.manager4kb.allocated) (kept : (write (m.chunk c)).surplus = (m.chunk c).surplus) :
    Ledger records { m with manager4kb := m.manager4kb.modify c write } := by
  have data : ∀ d, chunk { m with manager4kb := m.manager4kb.modify c write } d =
      if d = c then write (m.chunk c) else m.chunk d := Dll.modify_data m.manager4kb c write
  constructor
  case surplus =>
    intro d below
    rw [data]
    by_cases same : d = c
    · rw [if_pos same, kept, same]
      exact ledger.surplus c inside
    · rw [if_neg same]
      exact ledger.surplus d below
  case fresh =>
    intro d above
    rw [data, if_neg (Nat.ne_of_gt (Nat.lt_of_lt_of_le inside above))]
    exact ledger.fresh d above
  case entries => exact ledger.entries

theorem Ledger.request {frame : Option Nat} (ledger : m.Ledger records) (valid : m.Valid)
    (returned : m.physicalFrameRequest4kb = .ok (frame, next)) : next.Ledger records := by
  have validNext := (physicalFrameRequest4kb_spec valid returned).1
  rcases physicalFrameRequest4kb_cases valid.stacked returned with
    ⟨c, i, inside, page, clear, -, rfl⟩ | ⟨-, pmm, ⟨-, -, rfl⟩ | ⟨start, -, -, rfl⟩⟩
  · exact ledger.modify inside (HugeChunk.surplus_take page clear)
  · exact ⟨ledger.surplus, ledger.fresh, ledger.entries⟩
  · have bound := validNext.allocated_le
    have old : ∀ c, c ≠ m.manager4kb.allocated →
        chunk ⟨pmm, m.manager4kb.pushed (HugeChunk.start start)⟩ c = m.chunk c := by
      intro c other
      simp [chunk, Dll.pushed, other]
    constructor
    case surplus =>
      intro c below
      by_cases new : c = m.manager4kb.allocated
      · rw [new, chunk, Dll.pushed_data, HugeChunk.surplus_start]
        exact congrArg HugeChunk.useCount (ledger.fresh _ (Nat.le_refl _))
      · have older : c < m.manager4kb.allocated := Nat.lt_of_le_of_ne (Nat.lt_succ_iff.mp below) new
        rw [old c new]
        exact ledger.surplus c older
    case fresh =>
      intro c above
      have other : c ≠ m.manager4kb.allocated := Nat.ne_of_gt above
      rw [old c other]
      exact ledger.fresh c (Nat.le_of_succ_le above)
    case entries =>
      change (m.manager4kb.entryCount + 1) % 2 ^ 32 = m.manager4kb.allocated + 1
      change m.manager4kb.allocated + 1 ≤ frameBound at bound
      rw [ledger.entries, Nat.mod_eq_of_lt]
      unfold frameBound at bound
      omega

theorem Valid.used_page (valid : m.Valid) {c address : Nat} (isUsed : m.Used address)
    (inside : c < m.manager4kb.allocated)
    (holds : HugeChunk.holds address (m.chunk c) = some ()) :
    (pgRoundDown address - m.manager4kb.startOf c) / pgSize ∈ (m.chunk c).usedPages := by
  obtain ⟨d, below, i, page, rfl, bit⟩ := isUsed
  have start : m.manager4kb.startOf d + i * pgSize < m.manager4kb.startOf d + hugePgSize := by
    unfold pgSize hugePgSize
    omega
  have holds' : HugeChunk.holds (m.manager4kb.startOf d + i * pgSize) (m.chunk d) = some () :=
    if_pos ⟨Nat.le_add_right _ _, start⟩
  obtain rfl := valid.holds_unique inside below holds holds'
  have index : (pgRoundDown (m.manager4kb.startOf c + i * pgSize) - m.manager4kb.startOf c) / pgSize =
      i := by
    rw [pgRoundDown, valid.start_aligned inside, Nat.sub_zero, Nat.add_sub_cancel_left,
      Nat.mul_div_cancel i (by decide)]
  rw [index]
  exact HugeChunk.mem_usedPages.mpr ⟨page, bit⟩

theorem Ledger.free {address : Nat} {freed : Bool} (ledger : m.Ledger records) (valid : m.Valid)
    (isUsed : m.Used address) (returned : m.tryFreeChunkedFrame address = .ok (freed, next)) :
    next.Ledger records := by
  obtain ⟨⟨freed', spm⟩, done, same⟩ := Outcome.bind_ok.mp returned
  cases same
  rcases SmallPageManager.tryFreeChunkedFrame_listed done with
    ⟨rfl, -⟩ | ⟨c, i, listed, index, holds, rfl⟩
  · exact ledger
  · have inside := valid.stacked.listed_lt listed
    have page : i ∈ (m.chunk c).usedPages := by
      rw [index]
      exact valid.used_page isUsed inside holds
    have kept : ((m.chunk c).release i).surplus = (m.chunk c).surplus :=
      HugeChunk.surplus_release page
    have released : Ledger records
        { m with manager4kb := m.manager4kb.modify c fun data => data.release i } :=
      ledger.modify inside kept
    split
    next zero =>
      have stacked := valid.stacked.modify c fun data => data.release i
      rw [stacked.removeDllEntry_eq inside]
      exact ⟨released.surplus, released.fresh, released.entries⟩
    next => exact released

theorem Ledger.step {s t : Session} {call : Call} (ledger : s.managers.Ledger records) (inv : s.Inv)
    (moved : Session.Step s call t) : t.managers.Ledger records := by
  cases moved with
  | request returned => exact ledger.request inv.valid returned
  | free outstanding returned => exact ledger.free inv.valid (inv.used _ outstanding) returned

theorem ledger_run {pmm : PhysicalMemoryManager} {calls : List Call} {s : Session}
    (run : Trace Session.Step (Session.boot pmm records) calls s) :
    s.Inv ∧ s.managers.Ledger records := by
  apply run.invariant
  · rintro s call t ⟨inv, ledger⟩ moved
    exact ⟨inv.step moved, ledger.step inv moved⟩
  · exact ⟨.boot pmm records, fun c never => absurd never (Nat.not_lt_zero c), fun c _ => rfl, rfl⟩

/-- The counts of the chunks on the list are right, a request passes over the full ones, and
the free of an outstanding page takes off the list the chunk that it empties, and no other. -/
structure Session.Accounted (s : Session) : Prop where
  count : ∀ c, s.managers.manager4kb.Listed c →
    (s.managers.chunk c).useCount.toNat = (s.managers.chunk c).usedPages.card
  skipped : ∀ c, s.managers.manager4kb.Listed c →
    ((s.managers.chunk c).freeIndex = none ↔ (s.managers.chunk c).usedPages.card = 500)
  retired : ∀ address ∈ s.outstanding, ∀ freed next,
    s.managers.tryFreeChunkedFrame address = .ok (freed, next) →
      ∀ c, s.managers.manager4kb.Listed c → (¬next.manager4kb.Listed c ↔
        HugeChunk.holds address (s.managers.chunk c) = some () ∧
          (s.managers.chunk c).usedPages.card = 1)

def Session.LastInFront (s : Session) : Prop :=
  ∀ address ∈ s.outstanding, ∀ c, s.managers.manager4kb.Listed c →
    HugeChunk.holds address (s.managers.chunk c) = some () →
    (s.managers.chunk c).usedPages.card = 1 → s.managers.manager4kb.first = .record c

theorem Ledger.retired {address : Nat} {freed : Bool} (ledger : m.Ledger records) (valid : m.Valid)
    (count : ∀ c, m.manager4kb.Listed c → (m.chunk c).useCount.toNat = (m.chunk c).usedPages.card)
    (returned : m.tryFreeChunkedFrame address = .ok (freed, next)) :
    (∀ c, m.manager4kb.Listed c → HugeChunk.holds address (m.chunk c) = some () →
        (m.chunk c).usedPages.card = 1 → m.manager4kb.first = .record c) ↔
      ∀ c, m.manager4kb.Listed c → (¬next.manager4kb.Listed c ↔
        HugeChunk.holds address (m.chunk c) = some () ∧ (m.chunk c).usedPages.card = 1) := by
  obtain ⟨⟨freed', spm⟩, done, same⟩ := Outcome.bind_ok.mp returned
  cases same
  rcases SmallPageManager.tryFreeChunkedFrame_listed done with
    ⟨rfl, none⟩ | ⟨d, i, listed, -, holds, rfl⟩
  · have nowhere : ∀ c, m.manager4kb.Listed c → HugeChunk.holds address (m.chunk c) ≠ some () := by
      intro c listed held
      have some : m.manager4kb.entryCount ≠ 0 := by
        rw [ledger.entries]
        exact Nat.ne_of_gt (Nat.zero_lt_of_lt (valid.stacked.listed_lt listed))
      cases held.symm.trans (none c listed some valid.stacked)
    refine iff_of_true (fun c listed held => absurd held (nowhere c listed)) fun c listed => ?_
    exact iff_of_false (not_not_intro listed) fun both => nowhere c listed both.1
  · have unique : ∀ c, m.manager4kb.Listed c →
        HugeChunk.holds address (m.chunk c) = some () → c = d := fun c listed' held =>
      valid.holds_unique (valid.stacked.listed_lt listed') (valid.stacked.listed_lt listed) held holds
    have headed := (valid.stacked.modify d fun data => data.release i).headed
    have released : ∀ c, (m.manager4kb.modify d fun data => data.release i).Listed c ↔
        m.manager4kb.Listed c := fun c => Dll.listed_modify
    have zero : ((m.manager4kb.records d).data.release i).useCount = 0#32 ↔
        (m.chunk d).usedPages.card = 1 := HugeChunk.release_useCount (count d listed) i
    by_cases last : (m.chunk d).usedPages.card = 1
    · rw [if_pos (zero.mpr last)]
      constructor
      · intro inFront c member
        have first := inFront d listed holds last
        rw [headed.listed_removed_first first, released, and_iff_right member, not_not]
        constructor
        · rintro rfl
          exact ⟨holds, last⟩
        · exact fun both => unique c member both.1
      · -- The first chunk leaves the list in any case, so it is this one
        intro right c member held _
        obtain rfl := unique c member held
        cases first : m.manager4kb.first with
        | record f =>
          have isFirst : m.manager4kb.Listed f := by
            rw [Dll.Listed, first]
            exact .here
          have gone := (right f isFirst).mp (headed.first_removed ((released c).mpr listed) first)
          rw [unique f isFirst gone.1]
        | _ =>
          rw [Dll.Listed, first] at member
          cases member
    · rw [if_neg fun never => last (zero.mp never)]
      have others : ∀ c, m.manager4kb.Listed c →
          HugeChunk.holds address (m.chunk c) = some () → (m.chunk c).usedPages.card ≠ 1 := by
        intro c member held
        rw [unique c member held]
        exact last
      refine iff_of_true (fun c member held only => absurd only (others c member held)) ?_
      intro c member
      refine iff_of_false (not_not_intro ((released c).mpr member)) fun both => ?_
      exact others c member both.1 both.2

/-- In every state that calls lead to, the chunks are in order exactly if the memory of those
on the list held zero as their use count, and no chunk with newer ones before it comes to its
last page. -/
theorem chunks_accounted_iff {pmm : PhysicalMemoryManager} {calls : List Call} {s : Session}
    (run : Trace Session.Step (Session.boot pmm records) calls s) :
    s.Accounted ↔
      (∀ c, s.managers.manager4kb.Listed c → (records c).data.useCount = 0#32) ∧ s.LastInFront := by
  obtain ⟨inv, ledger⟩ := ledger_run run
  have counts : ∀ c, s.managers.manager4kb.Listed c → ((records c).data.useCount = 0#32 ↔
      (s.managers.chunk c).useCount.toNat = (s.managers.chunk c).usedPages.card) := by
    intro c listed
    rw [← ledger.surplus c (inv.valid.stacked.listed_lt listed)]
    exact HugeChunk.surplus_eq_zero
  constructor
  · intro accounted
    refine ⟨fun c listed => (counts c listed).mpr (accounted.count c listed), ?_⟩
    intro address outstanding
    obtain ⟨freed, next, returned, -⟩ := tryFreeChunkedFrame_spec inv.valid address
    exact (ledger.retired inv.valid accounted.count returned).mpr
      (accounted.retired address outstanding freed next returned)
  · rintro ⟨zero, inFront⟩
    have count := fun c listed => (counts c listed).mp (zero c listed)
    constructor
    case count => exact count
    case skipped => exact fun c listed => HugeChunk.freeIndex_none (count c listed)
    case retired =>
      intro address outstanding freed next returned
      exact (ledger.retired inv.valid count returned).mp (inFront address outstanding)

theorem chunks_accounted_iff_one_page : ∃ s,
    Trace Session.Step (Session.boot oneFrame zeroRecords) [.request (some (512 * hugePgSize))] s ∧
      (s.Accounted ↔ (∀ c, s.managers.manager4kb.Listed c → (zeroRecords c).data.useCount = 0#32) ∧
        s.LastInFront) := by
  obtain ⟨s, first, -⟩ := oneFrame_first_request zeroRecords
  have run := Trace.cons first (.nil s)
  exact ⟨s, run, chunks_accounted_iff run⟩

def usedRecords : Nat → Cell HugeChunk := fun _ => ⟨.null, .null, ⟨0, 7#32, fun _ => 0#32⟩⟩

/-- The first chunk over that memory has one page in use and counts eight. -/
theorem chunk_not_counted : ∃ s,
    Trace Session.Step (Session.boot oneFrame usedRecords) [.request (some (512 * hugePgSize))] s ∧
      ¬s.Accounted := by
  obtain ⟨pmm, request⟩ := oneFrame_request
  have stacked : (Session.boot oneFrame usedRecords).managers.manager4kb.Stacked :=
    Dll.stacked_empty usedRecords
  have first := Session.Step.request (physicalFrameRequest4kb_new stacked rfl request)
  refine ⟨_, .cons first (.nil _), fun accounted => ?_⟩
  have count := accounted.count 0 .here
  have used : (HugeChunk.start (512 * hugePgSize) (usedRecords 0).data).usedPages.card = 1 := by
    rw [HugeChunk.usedPages_start, Finset.card_singleton]
  change (HugeChunk.start (512 * hugePgSize) (usedRecords 0).data).useCount.toNat =
    (HugeChunk.start (512 * hugePgSize) (usedRecords 0).data).usedPages.card at count
  rw [used] at count
  cases count

end FrameManagers

end SwagOS.Mem
