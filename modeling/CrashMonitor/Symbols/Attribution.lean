import CrashMonitor.Report.Threads
import CrashMonitor.Lib.StableSort
import CrashMonitor.Privacy.Sanitizer

/-!
# Which image an address belongs to

The report formatter looks for the image whose text range has the address. The
fingerprint's test for system frames (`preprocessors/fingerprint.rs`) and the
slide of offline symbolication (`cli/symbolicate.rs`) take the image with the
greatest base up to the address instead, whether or not it has a text range.
-/

namespace CrashMonitor.Symbols

open Lib Report StableSort Privacy List

/-! ## The fingerprint's lookup -/

section

variable (images : List RawImageData) (address : Nat)

def systemPrefixes : List String :=
  ["/usr/lib/", "/System/Library/", "/Library/Apple/", "/AppleInternal/"]

/-- The image that `is_system_image_name` looks at. -/
def systemLookup : Option RawImageData := lastUpTo RawImageData.baseAddress images address

def isSystemImageName : Bool :=
  match systemLookup images address with
  | none => false
  | some image => systemPrefixes.any fun start => start.toList.isPrefixOf image.path.toList

/-- A frame of the fingerprint. -/
inductive Frame where
  | symbol (name : String)
  | place (image : String) (offset : Nat)
  deriving DecidableEq, Repr

/-- What one address adds to the frames. -/
def frameOf (symbols : SortedMap Nat String) (address : Nat) : Option Frame :=
  match resolveAddress images address with
  | (none, _) => none
  | (some image, offset) =>
    if isSystemImageName images address then none
    else match symbols.entries.lookup address with
      | some name => some (.symbol name)
      | none => some (.place image (offset.getD 0))

end

/-! ## Offline symbolication

`cli/symbolicate.rs` works on the images of a report; their addresses are the
numbers that the texts of the report stand for. -/

structure LoadedImage extends RawImageData where
  slide : Option Nat
  uuid : Option String
  architecture : Option String

structure MachOIdentity where
  uuid : String
  architecture : String

section

variable (dwarf : List MachOIdentity) (images : List LoadedImage)

def LoadedImage.identifiedBy (image : LoadedImage) (identity : MachOIdentity) : Bool :=
  match image.uuid with
  | none => false
  | some uuid => foldCase identity.uuid.toList = foldCase uuid.toList &&
      image.architecture.all (· = identity.architecture)

/-- The image that the debug information is about. -/
def targetImage : Option LoadedImage := images.find? fun image => dwarf.any image.identifiedBy

structure ImageSlide where
  base : Nat
  slide : Nat

def LoadedImage.imageSlide (image : LoadedImage) : ImageSlide :=
  ⟨image.baseAddress, image.slide.getD 0⟩

def buildSlideMap : List ImageSlide := sortByKey ImageSlide.base (images.map (·.imageSlide))

def findSlideForAddress (slides : List ImageSlide) (address : Nat) : Nat :=
  match lastUpTo ImageSlide.base slides address with
  | none => 0
  | some image => image.slide

/-- The slide taken off an address; only frames of the target image are looked
up. -/
def appliedSlide (address : Nat) : Option Nat :=
  if (targetImage dwarf images).any (·.covers address) then
    some (findSlideForAddress (buildSlideMap images) address)
  else none

end

/-! ## Attribution -/

/-- The images of a capture; `enumerate_loaded_images` sorts them. -/
structure ImageList where
  images : List LoadedImage
  sorted : SortedByKey (·.baseAddress) images

section

variable (dwarf : List MachOIdentity) (list : ImageList) (address : Nat)

def ImageList.raw : List RawImageData := list.images.map (·.toRawImageData)

/-- Formatter, fingerprint and offline symbolication take the address to be in
this image. -/
structure Attributed (owner : LoadedImage) : Prop where
  name : resolveAddress list.raw address = (some (lastSegment owner.path),
    some (address - owner.textStart.getD owner.baseAddress))
  system : systemLookup list.raw address = some owner.toRawImageData
  slide : ∀ slide, appliedSlide dwarf list.images address = some slide → slide = owner.slide.getD 0

theorem systemLookup_raw :
    systemLookup list.raw address =
      (lastUpTo (·.baseAddress) list.images address).map (·.toRawImageData) := lastUpTo_map _ _

theorem resolveAddress_raw :
    resolveAddress list.raw address =
      match list.images.find? (·.covers address) with
      | none => (none, none)
      | some image => (some (lastSegment image.path),
          some (address - image.textStart.getD image.baseAddress)) := by
  have hfind : list.raw.find? (·.covers address) =
      (list.images.find? (·.covers address)).map (·.toRawImageData) := List.find?_map
  rw [resolveAddress, hfind]
  cases list.images.find? (·.covers address) with
  | none => rfl
  | some image => rfl

/-- The slide map keeps the order of the images. -/
theorem findSlideForAddress_buildSlideMap :
    findSlideForAddress (buildSlideMap list.images) address =
      ((lastUpTo (·.baseAddress) list.images address).bind (·.slide)).getD 0 := by
  have hsorted : SortedByKey ImageSlide.base (list.images.map (·.imageSlide)) :=
    pairwise_map.mpr list.sorted
  have hlookup : lastUpTo ImageSlide.base (buildSlideMap list.images) address =
      (lastUpTo (·.baseAddress) list.images address).map (·.imageSlide) := by
    rw [buildSlideMap, sortByKey_of_sorted hsorted]
    exact lastUpTo_map _ _
  rw [findSlideForAddress, hlookup]
  cases lastUpTo (·.baseAddress) list.images address with
  | none => rfl
  | some image => rfl

/-- **Attribution.** The three lookups refer to the one image whose text range
has the address exactly if that image starts at or below the address and no
image behind it does; an address in no text range is attributed to none. -/
theorem address_attribution (dwarf : List MachOIdentity) (list : ImageList) (address : Nat) :
    (∀ before owner after, list.images = before ++ owner :: after → owner.covers address = true →
      (∀ other ∈ before ++ after, other.covers address = false) →
      (Attributed dwarf list address owner ↔
        owner.baseAddress ≤ address ∧ ∀ other ∈ after, address < other.baseAddress)) ∧
    ((∀ image ∈ list.images, image.covers address = false) →
      resolveAddress list.raw address = (none, none) ∧
      (∀ symbols, frameOf list.raw symbols address = none) ∧
      appliedSlide dwarf list.images address = none) := by
  constructor
  · intro before owner after himages hcovers hothers
    have honly : ∀ image ∈ list.images, image.covers address = true → image = owner := by
      intro image himage hcovers'
      have hplace : image ∈ before ++ after ∨ image = owner := by
        rw [himages] at himage
        simp only [mem_append, mem_cons] at himage ⊢
        tauto
      refine hplace.resolve_left fun hother => ?_
      rw [hothers image hother] at hcovers'
      cases hcovers'
    have hafter : owner ∉ after := by
      intro hmem
      rw [hothers owner (mem_append_right _ hmem)] at hcovers
      cases hcovers
    have hlookup : lastUpTo (·.baseAddress) list.images address = some owner ↔
        owner.baseAddress ≤ address ∧ ∀ other ∈ after, address < other.baseAddress := by
      have hsorted := list.sorted
      rw [himages] at hsorted ⊢
      exact lastUpTo_eq_some_iff hsorted hafter
    rw [← hlookup]
    constructor
    · intro h
      have hsystem := h.system
      rw [systemLookup_raw, Option.map_eq_some_iff] at hsystem
      obtain ⟨image, hfound, hsame⟩ := hsystem
      rw [hfound, honly image ?_ (by rw [hsame]; exact hcovers)]
      rw [lastUpTo_eq_find? list.sorted] at hfound
      exact mem_reverse.mp (mem_of_find?_eq_some hfound)
    · intro hfound
      refine ⟨?_, by rw [systemLookup_raw, hfound]; rfl, ?_⟩
      · have hfirst : list.images.find? (·.covers address) = some owner := by
          rw [List.find?_eq_some_iff_append]
          refine ⟨hcovers, before, after, himages, fun other hother => ?_⟩
          simp [hothers other (mem_append_left _ hother)]
        rw [resolveAddress_raw, hfirst]
      · intro slide hslide
        rw [appliedSlide, findSlideForAddress_buildSlideMap, hfound] at hslide
        split at hslide
        · exact (Option.some.inj hslide).symm
        · cases hslide
  · intro hnone
    have hfind : list.images.find? (·.covers address) = none := by
      rw [List.find?_eq_none]
      intro image himage
      simp [hnone image himage]
    have hresolve : resolveAddress list.raw address = (none, none) := by
      rw [resolveAddress_raw, hfind]
    refine ⟨hresolve, fun symbols => by rw [frameOf, hresolve], ?_⟩
    have htarget : (targetImage dwarf list.images).any (·.covers address) = false := by
      cases hcase : targetImage dwarf list.images with
      | none => rfl
      | some image => exact hnone image (mem_of_find?_eq_some hcase)
    rw [appliedSlide, htarget]
    rfl

end

/-- An application that a library without a text range is loaded into. -/
def gapped : ImageList where
  images :=
    [{ path := "/Applications/game", baseAddress := 0x1000, textStart := some 0x1000,
       textEnd := some 0x9000, slide := some 0x800, uuid := some "A", architecture := none },
     { path := "/usr/lib/libgap.dylib", baseAddress := 0x2000, textStart := none,
       textEnd := none, slide := some 0x100, uuid := none, architecture := none }]
  sorted := by simp [SortedByKey]

/-- The address is in the application only, and the formatter says so; the
fingerprint drops it as a frame of the library, and offline symbolication takes
off the slide of the library. -/
theorem nearest_base_misattributes :
    gapped.images.map (·.covers 0x3000) = [true, false] ∧
      resolveAddress gapped.raw 0x3000 = (some "game", some 0x2000) ∧
      frameOf gapped.raw .empty 0x3000 = none ∧
      appliedSlide [⟨"a", "arm64"⟩] gapped.images 0x3000 = some 0x100 := by
  refine ⟨by decide, by decide, by decide, ?_⟩
  rw [appliedSlide, findSlideForAddress_buildSlideMap]
  decide

end CrashMonitor.Symbols
