import SwagOS.Kernel.Fork.Copies
import SwagOS.Kernel.UserMemory.Sbrk

/-!
# A process whose list records its pages

The calls that map a page for a process put it on the list of used pages.  As long as the
tables that they name do not collide, the list is exactly what the tables map.
-/

namespace SwagOS.Kernel

open SwagOS.Lib SwagOS.DataStructures SwagOS.Mem ThreadPagetables

/-- Where the tables hold the listed pages and no others, the list is what user code gets to. -/
theorem RecordsExactly.of_exact {base : Nat} {view : View} {mem : UserMemory} (placed : Placed base)
    (stacked : mem.usedPages.Stacked)
    (aligned : ∀ page ∈ mem.usedPages.contents, page.pageVa % pgSize = 0)
    (tables : Exact base (mem.usedPages.contents.map UsedPage.placed) mem.pgdir)
    (once : (mem.usedPages.contents.map UsedPage.pagePa).Nodup) :
    RecordsExactly base view mem :=
  ⟨stacked, aligned, tables.ways, once, tables.kernel, fun _ _ => tables.leads placed⟩

namespace Space

/-- The memory of a process that has mapped pages at these places and removed none. -/
structure Recorded (base : Nat) (places : Set PagePlace) (s : Space) : Prop where
  valid : s.frames.Valid
  stacked : s.mem.usedPages.Stacked
  aligned : ∀ page ∈ s.mem.usedPages.contents, page.pageVa % pgSize = 0
  tables : Exact base (s.mem.usedPages.contents.map UsedPage.placed) s.mem.pgdir
  once : (s.mem.usedPages.contents.map UsedPage.pagePa).Nodup
  used : ∀ page ∈ s.mem.usedPages.contents, s.frames.Used page.pagePa
  members : ∀ page ∈ s.mem.usedPages.contents, page.place ∈ places

section Mapping

variable {base : Nat} {places : Set PagePlace} {s s' : Space} {place : PagePlace}
  {failure : String}

theorem Recorded.exactly (placed : Placed base) (recorded : s.Recorded base places) (view : View) :
    RecordsExactly base view s.mem :=
  .of_exact placed recorded.stacked recorded.aligned recorded.tables recorded.once

theorem Recorded.create (places : Set PagePlace) (placed : Placed base) (valid : s.frames.Valid)
    (stacked : s.mem.usedPages.Stacked) (empty : s.mem.usedPages.contents = []) :
    Recorded base places { s with mem := { s.mem with pgdir := .create base } } := by
  constructor
  case valid => exact valid
  case stacked => exact stacked
  case aligned =>
    dsimp only
    rw [empty]
    exact fun _ => nofun
  case tables =>
    dsimp only
    rw [empty]
    exact exact_create placed
  case once =>
    dsimp only
    rw [empty]
    exact .nil
  case used =>
    dsimp only
    rw [empty]
    exact fun _ => nofun
  case members =>
    dsimp only
    rw [empty]
    exact fun _ => nofun

theorem Recorded.mapNewFrame (placed : Placed base) (compatible : Compatible places)
    (recorded : s.Recorded base places) (member : place ∈ places) (aligned : place.va % pgSize = 0)
    (new : ∀ page ∈ s.mem.usedPages.contents, page.place.page ≠ place.page)
    (done : s.mapNewFrame failure base place.va place.pdtTableIndex place.pdTableIndex = .ok s') :
    ∃ frame, s'.Recorded base places ∧
      s'.mem.usedPages.contents = UserMemory.usedPage place frame :: s.mem.usedPages.contents := by
  rw [Space.mapNewFrame] at done
  obtain ⟨⟨frame, frames⟩, returned, done⟩ := Outcome.bind_ok.mp done
  cases frame with
  | none => cases done
  | some frame =>
  obtain ⟨mem, mapped, ⟨⟩⟩ := Outcome.bind_ok.mp done
  obtain ⟨valid, ⟨none, -⟩ | ⟨f, some, unused, grown⟩⟩ :=
    FrameManagers.physicalFrameRequest4kb_spec recorded.valid returned
  · cases none
  obtain rfl := Option.some.inj some
  have used : frames.Used frame := (grown frame).mpr (.inl rfl)
  have round : pgRoundDown place.va = place.va := by
    rw [pgRoundDown, aligned, Nat.sub_zero]
  have record : (UserMemory.usedPage place frame).placed = (place, frame) := by
    rw [UserMemory.usedPage, round]
    rfl
  obtain ⟨pgdir, tables, exact_⟩ := recorded.tables.map placed compatible
    (List.forall_mem_map.mpr recorded.members) member (List.forall_mem_map.mpr new)
    (used.aligned valid) (used.below valid)
  obtain ⟨pgdir', tables', rfl⟩ := (UserMemory.map4kbPageUser_iff place recorded.stacked).mp mapped
  cases tables.symm.trans tables'
  have contents := recorded.stacked.contents_pushed (UserMemory.usedPage place frame)
  refine ⟨frame, ?_, contents⟩
  have listed : (s.mem.withPage pgdir place frame).usedPages.contents =
    UserMemory.usedPage place frame :: s.mem.usedPages.contents := contents
  constructor
  case valid => exact valid
  case stacked => exact recorded.stacked.pushed fun _ => UserMemory.usedPage place frame
  case aligned =>
    dsimp only
    rw [listed]
    refine List.forall_mem_cons.mpr ⟨?_, recorded.aligned⟩
    rw [UserMemory.usedPage, round]
    exact aligned
  case tables =>
    dsimp only
    rw [listed, List.map_cons, record]
    exact exact_
  case once =>
    dsimp only
    rw [listed, List.map_cons]
    refine List.nodup_cons.mpr ⟨?_, recorded.once⟩
    intro before
    obtain ⟨page, isPage, same⟩ := List.mem_map.mp before
    have same : page.pagePa = frame := same
    exact unused (same ▸ recorded.used page isPage)
  case used =>
    dsimp only
    rw [listed]
    exact List.forall_mem_cons.mpr
      ⟨used, fun page isPage => (grown _).mpr (.inr (recorded.used page isPage))⟩
  case members =>
    dsimp only
    rw [listed]
    refine List.forall_mem_cons.mpr ⟨?_, recorded.members⟩
    have here : (UserMemory.usedPage place frame).place = place := congrArg Prod.fst record
    rw [here]
    exact member

end Mapping

section Pages

variable {base region : Nat} {s s' : Space} {pages : List UserPage} {failure : String}

def Lists (region : Nat) (pages : List UserPage) (s : Space) : Prop :=
  s.mem.usedPages.contents.map UsedPage.place = pages.map (UserPage.place region)

theorem Recorded.mapPages (placed : Placed base) (inside : region < 512)
    (recorded : s.Recorded base (UserPage.places region)) (new : List UserPage)
    (lists : s.Lists region pages) (distinct : (new.reverse ++ pages).Nodup)
    (done : new.foldlM (fun (s : Space) page =>
      s.mapNewFrame failure base (page.place region).va (page.place region).pdtTableIndex
        (page.place region).pdTableIndex) s = .ok s') :
    s'.Recorded base (UserPage.places region) ∧ s'.Lists region (new.reverse ++ pages) := by
  induction new generalizing s pages with
  | nil =>
    cases done
    exact ⟨recorded, lists⟩
  | cons page new inductionHypothesis =>
    rw [List.reverse_cons, List.append_assoc, List.singleton_append] at distinct ⊢
    obtain ⟨s₁, step, rest⟩ := Outcome.bind_ok.mp done
    have notBefore : page ∉ pages :=
      (List.nodup_cons.mp (List.nodup_append.mp distinct).2.1).1
    have apart : ∀ used ∈ s.mem.usedPages.contents,
        used.place.page ≠ (page.place region).page := by
      intro used listed same
      have isPlace : used.place ∈ s.mem.usedPages.contents.map UsedPage.place :=
        List.mem_map_of_mem listed
      rw [lists] at isPlace
      obtain ⟨page', before, isPage⟩ := List.mem_map.mp isPlace
      rw [← isPage] at same
      exact notBefore (UserPage.page_injective inside same ▸ before)
    have aligned := UserPage.place_aligned region page
    have member : page.place region ∈ UserPage.places region :=
      UserPage.placeAt_mem region page (by decide : 0 < pgSize)
    obtain ⟨frame, recorded₁, contents⟩ := recorded.mapNewFrame placed
      (UserPage.places_compatible inside) member aligned apart step
    refine inductionHypothesis recorded₁ ?_ distinct rest
    have round : pgRoundDown (page.place region).va = (page.place region).va := by
      rw [pgRoundDown, aligned, Nat.sub_zero]
    rw [Lists, contents, List.map_cons, lists, UserMemory.usedPage, round]
    rfl

theorem createUserProcessStack_pages (base region : Nat) (s : Space) :
    s.createUserProcessStack base =
      ((List.finRange 5).map UserPage.stack).foldlM (fun (s : Space) page =>
        s.mapNewFrame "CreateUserProcessStack() --> got null frame\n" base
          (page.place region).va (page.place region).pdtTableIndex
          (page.place region).pdTableIndex) s := by
  rw [List.foldlM_map]
  rfl

end Pages

end Space

theorem firstEntry : 0 < 512 := by decide

def firstPages : List UserPage :=
  ((List.finRange 5).map UserPage.stack).reverse ++ [.image ⟨0, firstEntry⟩]

theorem firstProcess_recorded {s : System} (created : firstProcess = .ok s) :
    (s.space 0).Recorded (System.machine.pgdirPhys 0) (UserPage.places 2) ∧
      (s.space 0).Lists 2 firstPages := by
  have process : System.fresh.table.findFreeProcess = some 0 := by decide +kernel
  obtain ⟨t, thread⟩ : ∃ t, System.fresh.table.findFreeThread = some t :=
    Option.isSome_iff_exists.mp (by decide +kernel)
  rw [firstProcess, System.createUserProcess, process, thread] at created
  obtain ⟨⟨iRip, loaded⟩, load, created⟩ := Outcome.bind_ok.mp created
  obtain ⟨space, stack, created⟩ := Outcome.bind_ok.mp created
  obtain ⟨-, -, created⟩ := Outcome.bind_ok.mp created
  obtain ⟨-, -, ⟨⟩⟩ := Outcome.bind_ok.mp created
  have placed := machine_placed
  have stacked : (System.fresh.space 0).mem.usedPages.Stacked := Dll.stacked_empty _
  let before : Space := { System.fresh.space 0 with
    mem := { System.fresh.memory 0 with pgdir := .create (System.machine.pgdirPhys 0) } }
  have start : before.Recorded (System.machine.pgdirPhys 0) (UserPage.places 2) :=
    .create _ placed System.fresh_start.inv.valid stacked rfl
  have nothing : before.Lists 2 [] := rfl
  -- the page of the segment
  obtain ⟨image, mapped, ⟨⟩⟩ := Outcome.bind_ok.mp load
  have imagePages : [UserPage.image 0].foldlM (fun (s : Space) page =>
      s.mapNewFrame "ELF_load_segments() failed! could not get 4kb frame.\n"
        (System.machine.pgdirPhys 0) (page.place 2).va (page.place 2).pdtTableIndex
        (page.place 2).pdTableIndex) before = .ok loaded := mapped
  obtain ⟨withImage, lists⟩ := start.mapPages placed (by decide) [.image 0] nothing (by decide)
    imagePages
  -- the pages of the stack
  rw [Space.createUserProcessStack_pages _ 2] at stack
  have all := withImage.mapPages placed (by decide) _ lists (by decide) stack
  exact all
end SwagOS.Kernel
