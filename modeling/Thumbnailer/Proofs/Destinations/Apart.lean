import Thumbnailer.Proofs.CommandLine.Prepared
import Thumbnailer.Proofs.Destinations.Names
import Thumbnailer.Proofs.Destinations.Paths
import Thumbnailer.Proofs.Mappings

/-!
# Destinations are apart

The outputs of several inputs never go to the same place: the destination of an output tells the directory and
the name that were asked for, and the input.
-/

namespace Thumbnailer

/-! ## What a destination tells -/

section
variable {name : String} (hname : IsName name) (destination : String)
include hname

omit destination in
theorem IsName.getLast?_append (front : String) : ∃ c, (front ++ name).toList.getLast? = some c ∧ c ≠ '/' := by
  cases hlast : name.toList.getLast? with
  | none => exact absurd (by simpa using hlast) hname.ne_empty
  | some c =>
    have hmem := List.mem_of_getLast? hlast
    exact ⟨c, by simp [String.toList_append, hlast], fun h => hname.no_slash (h ▸ hmem)⟩

theorem destinationIn_eq :
    destinationIn name destination =
      (Path.folder (Path.directory destination) ++ name) ++ "/" ++ Path.base destination := by
  obtain ⟨c, hlast, hc⟩ := hname.getLast?_append (Path.folder (Path.directory destination))
  rw [destinationIn, if_neg (by simpa using hname.ne_empty), Path.join_eq hname.no_slash,
    Path.join_eq (Path.not_mem_base _), Path.folder_of_getLast? hlast hc]

theorem base_destinationIn : Path.base (destinationIn name destination) = Path.base destination := by
  rw [destinationIn_eq hname]
  exact Path.base_append (Path.isFolder_append_slash _) (Path.not_mem_base _)

theorem directory_destinationIn :
    Path.directory (destinationIn name destination) = Path.folder (Path.directory destination) ++ name := by
  obtain ⟨c, hlast, hc⟩ := hname.getLast?_append (Path.folder (Path.directory destination))
  rw [destinationIn_eq hname, Path.directory_slash_append hlast hc (Path.not_mem_base _)]

theorem base_directory_destinationIn : Path.base (Path.directory (destinationIn name destination)) = name := by
  rw [directory_destinationIn hname]
  exact Path.base_append (Path.folder_isFolder _) hname.no_slash

theorem directory_directory_destinationIn :
    Path.directory (Path.directory (destinationIn name destination)) = Path.directory destination := by
  rw [directory_destinationIn hname]
  exact Path.directory_folder_append destination hname.no_slash

end

/-! ## The place of an output -/

namespace CommandLine

theorem get?_destinationsIn (p : Plan) (subdirectory : String) {e : Entry} (h : e ∈ p.entries) :
    (destinationsIn p subdirectory).get? e.index = some (destinationIn subdirectory e.output.destination) := by
  have hfind : p.entries.find? (fun x => x.index == e.index) = some e := by
    have hnodup := List.pairwise_map.1 (entriesOf_index_nodup p.outputs)
    obtain ⟨before, after, hsplit⟩ := List.append_of_mem h
    rw [Plan.entries] at hsplit
    rw [Plan.entries, hsplit, List.find?_append, List.find?_eq_none.2, Option.none_or, List.find?_cons_of_pos (by simp)]
    intro x hx
    rw [hsplit, List.pairwise_append] at hnodup
    simpa using hnodup.2.2 x hx e (by simp)
  have hkeys : (fun x : Int × String => x.1 == e.index) ∘
      (fun x : Entry => (x.index, destinationIn subdirectory x.output.destination)) =
        fun x => x.index == e.index := rfl
  rw [OrderedMap.get?, destinationsIn, List.find?_map, hkeys, hfind]
  rfl

theorem mem_of_get?_destinationsIn {p : Plan} {subdirectory d : String} {a : Int}
    (h : (destinationsIn p subdirectory).get? a = some d) :
    ∃ e ∈ p.entries, e.index = a ∧ d = destinationIn subdirectory e.output.destination := by
  rw [OrderedMap.get?, destinationsIn, List.find?_map, Option.map_map, Option.map_eq_some_iff] at h
  obtain ⟨e, hfind, rfl⟩ := h
  exact ⟨e, List.mem_of_find?_eq_some hfind, by simpa using List.find?_some hfind, rfl⟩

theorem subdirectories_of_two_le {inputs : List String} (h : 2 ≤ inputs.length) :
    subdirectories inputs = inputs.zip (directoryNames inputs) := by
  match inputs, h with
  | _ :: _ :: _, _ => rfl

/-- Where an output goes for an input, both given by number. -/
def placeOf? (p : Plan) (inputs : List String) (i : Nat) (a : Int) : Option String :=
  (subdirectories inputs)[i]?.bind fun m => (destinationsIn p m.2).get? a

theorem placeOf?_eq (p : Plan) {inputs : List String} (h : 2 ≤ inputs.length) (i : Nat) (a : Int) :
    placeOf? p inputs i a = (directoryNames inputs)[i]?.bind fun name => (destinationsIn p name).get? a := by
  have hlength := directoryNames_length inputs
  rw [placeOf?, subdirectories_of_two_le h, List.zip, List.getElem?_zipWith]
  by_cases hi : i < inputs.length
  · simp [hi, hlength]
  · simp [hi, hlength]

section
variable {p : Plan} {inputs : List String} (h : 2 ≤ inputs.length) {i : Nat}
include h

theorem exists_placeOf? (hi : i < inputs.length) {e : Entry} (he : e ∈ p.entries) :
    ∃ d, placeOf? p inputs i e.index = some d := by
  have hi' : i < (directoryNames inputs).length := by rwa [directoryNames_length]
  rw [placeOf?_eq p h, List.getElem?_eq_getElem hi', Option.bind_some, get?_destinationsIn p _ he]
  exact ⟨_, rfl⟩

theorem directoryNames_of_placeOf? {a : Int} {d : String} (hd : placeOf? p inputs i a = some d) :
    (directoryNames inputs)[i]? = some (Path.base (Path.directory d)) := by
  rw [placeOf?_eq p h, Option.bind_eq_some_iff] at hd
  obtain ⟨name, hname, hd⟩ := hd
  obtain ⟨e, -, -, rfl⟩ := mem_of_get?_destinationsIn hd
  rw [base_directory_destinationIn (directoryNames_isName _ _ (List.mem_of_getElem? hname)), hname]

theorem base_directory_of_placeOf? {e : Entry} (he : e ∈ p.entries) {d : String}
    (hd : placeOf? p inputs i e.index = some d) :
    Path.base d = Path.base e.output.destination ∧
      Path.directory (Path.directory d) = Path.directory e.output.destination := by
  rw [placeOf?_eq p h, Option.bind_eq_some_iff] at hd
  obtain ⟨name, hname, hd⟩ := hd
  have hisName := directoryNames_isName _ _ (List.mem_of_getElem? hname)
  obtain rfl := Option.some.inj ((get?_destinationsIn p name he).symm.trans hd)
  exact ⟨base_destinationIn hisName _, directory_directory_destinationIn hisName _⟩

theorem places_of_aims {rs : List Request} (hrs : rs.map aim = (subdirectories inputs).map (aimFor p)) :
    rs.map Request.media = inputs ∧
      ∀ i r, rs[i]? = some r → ∀ a, r.destinations.get? a = placeOf? p inputs i a := by
  constructor
  · have hmedia := congrArg (List.map Prod.fst) hrs
    rw [List.map_map, List.map_map, subdirectories_of_two_le h] at hmedia
    exact hmedia.trans (List.map_fst_zip (directoryNames_length inputs).ge)
  · intro i r hr a
    have hi : (rs.map aim)[i]? = some (aim r) := by rw [List.getElem?_map, hr, Option.map_some]
    rw [hrs, List.getElem?_map, Option.map_eq_some_iff] at hi
    obtain ⟨m, hm, haim⟩ := hi
    rw [placeOf?, hm, Option.bind_some]
    exact congrArg (fun aim => aim.2.get? a) haim.symm

theorem requests_placeOf? {s : Surroundings} {t t' : FileTree} {rs : List Request}
    (hrs : prepare s p t (subdirectories inputs) = (.ok rs, t')) :
    rs.map Request.media = inputs ∧
      ∀ i r, rs[i]? = some r → ∀ a, r.destinations.get? a = placeOf? p inputs i a := by
  refine places_of_aims h ?_
  rw [prepare_requests hrs, List.map_map]
  rfl

end

/-! ## Several inputs -/

/-- The outputs of several inputs go to places that are all different. -/
structure PlacesApart (p : Plan) (inputs : List String) : Prop where
  /-- Every output has a place for every input. -/
  total : ∀ i < inputs.length, ∀ e ∈ p.entries, ∃ d, placeOf? p inputs i e.index = some d
  /-- Requests are made for these places. -/
  requested : ∀ (s : Surroundings) (t t' : FileTree) (rs : List Request),
    prepare s p t (subdirectories inputs) = (.ok rs, t') → rs.map Request.media = inputs ∧
      ∀ i r, rs[i]? = some r → ∀ a, r.destinations.get? a = placeOf? p inputs i a
  across : ∀ {i j : Nat} {a b : Int} {d d' : String}, i ≠ j → placeOf? p inputs i a = some d →
    placeOf? p inputs j b = some d' → d ≠ d'
  within : ∀ {i : Nat} {d d' : String}, ∀ e ∈ p.entries, ∀ e' ∈ p.entries,
    Path.directory e.output.destination ≠ Path.directory e'.output.destination ∨
      Path.base e.output.destination ≠ Path.base e'.output.destination →
    placeOf? p inputs i e.index = some d → placeOf? p inputs i e'.index = some d' → d ≠ d'
  /-- A place has the base name that was asked for, in the directory of the input, in the directory that was
  asked for. -/
  inside : ∀ {i : Nat} {d : String}, ∀ e ∈ p.entries, placeOf? p inputs i e.index = some d →
    Path.base d = Path.base e.output.destination ∧
      (directoryNames inputs)[i]? = some (Path.base (Path.directory d)) ∧
      Path.directory (Path.directory d) = Path.directory e.output.destination

/-- **Different inputs never share a place.** For two or more inputs, whatever their names and the places that
were asked for. -/
theorem places_apart (p : Plan) (inputs : List String) (h : 2 ≤ inputs.length) : PlacesApart p inputs where
  total _ hi _ he := exists_placeOf? h hi he
  requested _ _ _ _ hrs := requests_placeOf? h hrs
  across := by
    intro i j a b d d' hij hd hd' heq
    have hi := directoryNames_of_placeOf? h hd
    have hj := directoryNames_of_placeOf? h hd'
    rw [← heq, ← hi] at hj
    -- One place would be in two directories, and their names differ.
    have hlt : i < (directoryNames inputs).length := (List.getElem?_eq_some_iff.1 hi).1
    exact hij ((List.getElem?_inj hlt (directoryNames_nodup inputs)).1 hj.symm)
  within := by
    intro i d d' e he e' he' hne hd hd' heq
    obtain ⟨hbase, hdirectory⟩ := base_directory_of_placeOf? h he hd
    obtain ⟨hbase', hdirectory'⟩ := base_directory_of_placeOf? h he' hd'
    rw [← heq] at hbase' hdirectory'
    exact hne.elim (· (hdirectory.symm.trans hdirectory')) (· (hbase.symm.trans hbase'))
  inside := by
    intro i d e he hd
    obtain ⟨hbase, hdirectory⟩ := base_directory_of_placeOf? h he hd
    exact ⟨hbase, directoryNames_of_placeOf? h hd, hdirectory⟩

/-- Three inputs; the name of the second one is what the third one is called to tell it from the first. -/
def alikeInputs : List String := ["a/video.mp4", "video-2.mkv", "b/video.mov/"]

def twoPlaces : Plan where
  program := "ffmpeg"
  graph := []
  outputs := [{ destination := "/thumbs//%04d.jpg" }, { kind := 1, destination := "%04d.jpg" }]

theorem places_apart_alike : 2 ≤ alikeInputs.length ∧ PlacesApart twoPlaces alikeInputs ∧
    placeOf? twoPlaces alikeInputs 0 0 = some "/thumbs/video/%04d.jpg" ∧
    placeOf? twoPlaces alikeInputs 1 1 = some "video-2/%04d.jpg" ∧
    placeOf? twoPlaces alikeInputs 2 0 = some "/thumbs/video-3/%04d.jpg" :=
  ⟨by decide, places_apart twoPlaces alikeInputs (by decide), by decide +kernel, by decide +kernel, by decide +kernel⟩

end CommandLine

end Thumbnailer
