/-
  What PROPFIND makes of a list of requested properties.

  `filter_props` compares namespaces and local names, and answers what it has and what it has
  not. What it has not goes out as prefixed names, and a namespace without a prefix of its own
  gets that of DAV: the client reads another name than the one it asked for. So the answer is a
  partition of the request exactly when the namespaces of what is missing are among the four
  that the document declares (`partitions_iff`).
-/
import CaldavMcp.Caldav.Properties

namespace CaldavMcp

/-- The prefixes `MultistatusBuilder::new` binds. -/
def boundPrefixes : List (String × String) :=
  [("D", davNs), ("C", caldavNs), ("A", appleNs), ("CS", csNs)]

/-- The expanded name of a property. -/
def PropValue.expanded (p : PropValue) : PropRequest := ⟨p.ns, p.name⟩

/-- The expanded name a client reads from a prefixed name. -/
def readName (name : String) : Option PropRequest := do
  let (p, localName) ← name.splitFirst ':'
  let ns ← boundPrefixes.lookup p
  return ⟨ns, localName⟩

/-- What is asked of the answer: the properties that are there, in their order, and, as the
    client reads them, the names of those that are not; no name is answered both ways. -/
structure Partitions (requested : List PropRequest) (available : List PropValue) : Prop where
  found : (filterProps (.props requested) available).1 =
    available.filter fun p => p.expanded ∈ requested
  missing : ∀ name, name ∈ (filterProps (.props requested) available).2.map readName ↔
    ∃ r ∈ requested, r ∉ available.map PropValue.expanded ∧ name = some r
  apart : ∀ p ∈ (filterProps (.props requested) available).1,
    some p.expanded ∉ (filterProps (.props requested) available).2.map readName

/-- The namespaces with a prefix of their own. -/
def knownNamespaces : List String := [davNs, caldavNs, appleNs, csNs]

section

variable {requested : List PropRequest} {available : List PropValue}

theorem PropRequest.names_iff (r : PropRequest) (p : PropValue) :
    r.names p = true ↔ r = p.expanded := by
  obtain ⟨ns, localName⟩ := r
  unfold PropRequest.names PropValue.expanded
  rw [Bool.and_eq_true, decide_eq_true_eq, decide_eq_true_eq, PropRequest.mk.injEq, and_comm]

theorem filterProps_found (requested : List PropRequest) (available : List PropValue) :
    (filterProps (.props requested) available).1 =
      available.filter fun p => p.expanded ∈ requested := by
  refine List.filter_congr fun p _ => ?_
  rw [Bool.eq_iff_iff, List.any_eq_true, decide_eq_true_eq]
  constructor
  · rintro ⟨r, hr, hname⟩
    rwa [← (r.names_iff p).mp hname]
  · intro h
    exact ⟨p.expanded, h, (p.expanded.names_iff p).mpr rfl⟩

/-- The names that are missing are the requested ones that are not available. -/
theorem filterProps_missing (requested : List PropRequest) (available : List PropValue) :
    (filterProps (.props requested) available).2 =
      (requested.filter fun r => r ∉ available.map PropValue.expanded).map fun r =>
        prefixName r.ns r.localName := by
  have hmissing : (requested.filter fun r =>
      !(filterProps (.props requested) available).1.any (r.names ·)) =
      requested.filter fun r => r ∉ available.map PropValue.expanded := by
    refine List.filter_congr fun r hr => ?_
    rw [filterProps_found, Bool.eq_iff_iff, Bool.not_eq_true', decide_eq_true_eq,
      Bool.eq_false_iff, not_iff_not, List.any_eq_true, List.mem_map]
    constructor
    · rintro ⟨p, hp, hname⟩
      exact ⟨p, (List.mem_filter.mp hp).1, ((r.names_iff p).mp hname).symm⟩
    · rintro ⟨p, hp, rfl⟩
      exact ⟨p, List.mem_filter.mpr ⟨hp, decide_eq_true hr⟩, (p.expanded.names_iff p).mpr rfl⟩
  exact congrArg (List.map _) hmissing

/-- A prefixed name is read with the namespace its prefix is bound to. -/
theorem readName_prefixName (ns localName : String) :
    readName (prefixName ns localName) =
      some ⟨if ns ∈ knownNamespaces then ns else davNs, localName⟩ := by
  have hread : ∀ p ns' : String, ':' ∉ p.toList → boundPrefixes.lookup p = some ns' →
      readName (p ++ ":" ++ localName) = some ⟨ns', localName⟩ := by
    intro p ns' hp hlookup
    unfold readName String.splitFirst
    rw [String.toList_append, String.toList_append, List.append_assoc]
    rw [show ":".toList ++ localName.toList = ':' :: localName.toList from rfl,
      Text.splitOnce_append hp]
    simp only [Option.map_some, Option.bind_eq_bind, Option.bind_some, String.ofList_toList,
      hlookup]
    rfl
  unfold prefixName nsPrefix knownNamespaces
  by_cases h1 : ns = davNs
  · rw [if_pos h1, hread "D" davNs (by decide) rfl, h1, if_pos (by simp)]
  by_cases h2 : ns = caldavNs
  · rw [if_neg h1, if_pos h2, hread "C" caldavNs (by decide) rfl, h2, if_pos (by simp)]
  by_cases h3 : ns = appleNs
  · rw [if_neg h1, if_neg h2, if_pos h3, hread "A" appleNs (by decide) rfl, h3, if_pos (by simp)]
  by_cases h4 : ns = csNs
  · rw [if_neg h1, if_neg h2, if_neg h3, if_pos h4, hread "CS" csNs (by decide) rfl, h4,
      if_pos (by simp)]
  · rw [if_neg h1, if_neg h2, if_neg h3, if_neg h4, hread "D" davNs (by decide) rfl,
      if_neg (by simp [h1, h2, h3, h4])]

/-- **PROPFIND partitions the request.** The properties that are answered as found are always
    those that are requested and available; those answered as not found read as the other ones
    exactly when each of these has a namespace that the document declares. -/
theorem partitions_iff (requested : List PropRequest) (available : List PropValue) :
    Partitions requested available ↔
      ∀ r ∈ requested, r ∉ available.map PropValue.expanded → r.ns ∈ knownNamespaces := by
  have hmem : ∀ name, name ∈ (filterProps (.props requested) available).2.map readName ↔
      ∃ r ∈ requested, r ∉ available.map PropValue.expanded ∧
        name = some ⟨if r.ns ∈ knownNamespaces then r.ns else davNs, r.localName⟩ := by
    intro name
    rw [filterProps_missing, List.map_map, List.mem_map]
    constructor
    · rintro ⟨r, hr, rfl⟩
      obtain ⟨hr, hout⟩ := List.mem_filter.mp hr
      exact ⟨r, hr, of_decide_eq_true hout, readName_prefixName ..⟩
    · rintro ⟨r, hr, hout, rfl⟩
      exact ⟨r, List.mem_filter.mpr ⟨hr, decide_eq_true hout⟩, readName_prefixName ..⟩
  constructor
  · intro h r hr hout
    -- the name is read back from some missing property, and every namespace read is known
    obtain ⟨r', -, -, hread⟩ := (hmem _).mp ((h.missing (some r)).mpr ⟨r, hr, hout, rfl⟩)
    rw [Option.some.inj hread]
    dsimp only
    split
    · assumption
    · decide
  · intro h
    have hmissing : ∀ name, name ∈ (filterProps (.props requested) available).2.map readName ↔
        ∃ r ∈ requested, r ∉ available.map PropValue.expanded ∧ name = some r := by
      refine fun name => (hmem name).trans ?_
      refine exists_congr fun r => and_congr_right fun hr => and_congr_right fun hout => ?_
      rw [if_pos (h r hr hout)]
    refine ⟨filterProps_found .., hmissing, fun p hp hname => ?_⟩
    obtain ⟨r, -, hout, hr⟩ := (hmissing _).mp hname
    rw [filterProps_found] at hp
    rw [← Option.some.inj hr] at hout
    exact hout (List.mem_map_of_mem (List.mem_filter.mp hp).1)

end

/-- A client asks for a property of a namespace the server has never heard of, and is told that
    there is no property of that name in the namespace of DAV. -/
theorem partition_renames : ¬ ∀ (requested : List PropRequest) (available : List PropValue),
    (available.map PropValue.expanded).Nodup → Partitions requested available := by
  intro h
  have hpart := h [⟨"urn:example", "getetag"⟩, ⟨davNs, "getetag"⟩]
    [textProp davNs "getetag" "\"1\""] (by decide)
  have hread : (filterProps (.props [⟨"urn:example", "getetag"⟩, ⟨davNs, "getetag"⟩])
      [textProp davNs "getetag" "\"1\""]).2.map readName = [some ⟨davNs, "getetag"⟩] := by decide
  have hmissing := (hpart.missing (some ⟨"urn:example", "getetag"⟩)).mpr
    ⟨_, List.mem_cons_self, by decide, rfl⟩
  rw [hread] at hmissing
  revert hmissing
  decide

end CaldavMcp
