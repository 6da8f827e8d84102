import CrateDocs.Item.Format
import CrateDocs.Proofs.Exactness.Entries
import CrateDocs.Proofs.Exactness.TypeExpr

/-!
# Items are read exactly

The fields of a record describe an item if and only if the record contains the written form of the
item.
-/

namespace CrateDocs

open Reading

variable {v : Json} {r : Record v} {key : String}

theorem WherePredicate.read_eq_ok {predicate : WherePredicate} :
    WherePredicate.read v = .ok predicate ↔ v.Contains predicate.toJson := by
  refine Record.asRecord_bind_eq_ok (by cases predicate <;> rfl) fun r => ?_
  cases predicate
  all_goals
    refine Record.tagged_eq_ok ⟨_, rfl⟩ (fun s h => ?_) (fun htag => ?_)
    · split at h <;> simp [Record.unknownTag] at h ⊢
    · simp [r.contains_obj, htag, WherePredicate.toJson, Record.type_eq_ok, Record.term_eq_ok,
        Record.params_eq_ok, Record.bounds_eq_ok]

theorem Generics.read_eq_ok {generics : Generics} :
    Generics.read v = .ok generics ↔ v.Contains generics.toJson := by
  refine Record.asRecord_bind_eq_ok rfl fun r => ?_
  have hpredicates {predicates} :
      r.list "where_predicates" (WherePredicate.read ·) = .ok predicates ↔ _ :=
    Record.list_eq_ok (fun _ _ => WherePredicate.read_eq_ok) (by simp)
  obtain ⟨params, predicates⟩ := generics
  simp [r.contains_obj, Generics.toJson, hpredicates, Record.params_eq_ok]

theorem Record.generics_eq_ok (hkey : key ∉ Json.specialKeys) {generics : Generics} :
    r.field key (Generics.read ·) = .ok generics ↔
      Json.HasField r.members key generics.toJson :=
  field_eq_ok (fun _ _ => Generics.read_eq_ok) hkey fun _ => by simp [Generics.toJson]

theorem Discriminant.read_eq_ok {discriminant : Discriminant} :
    Discriminant.read v = .ok discriminant ↔ v.Contains discriminant.toJson := by
  refine Record.asRecord_bind_eq_ok rfl fun r => ?_
  obtain ⟨expr, value⟩ := discriminant
  simp [r.contains_obj, Discriminant.toJson]

theorem Signature.ofRecord_eq_ok {signature : Signature} :
    Signature.ofRecord r = .ok signature ↔
      Json.ContainsFields r.members signature.members := by
  obtain ⟨decl, generics, header⟩ := signature
  simp [Signature.ofRecord, Signature.members, Record.decl_eq_ok, Record.generics_eq_ok,
    Record.header_eq_ok]

theorem Json.contains_ofStrings {strings : List String} :
    v.Contains (.ofStrings strings) ↔ v = .ofStrings strings := by
  have hitems {items : List Json} :
      List.Forall₂ Contains items (strings.map .str) ↔ items = strings.map .str := by
    rw [← List.forall₂_eq_eq_eq]
    simp only [List.forall₂_map_right_iff, contains_str]
  simp only [ofStrings, contains_arr, hitems, exists_eq_right]

/-- Names that are listed in any order, some of them repeatedly, are read as a set. -/
theorem Record.names_eq_ok {names : NameSet} :
    (∃ strings, r.strings "provided_trait_methods" = .ok strings ∧
        Std.ExtTreeSet.ofList strings compare = names) ↔
      Json.HasField r.members "provided_trait_methods" (.ofStrings names.toList) := by
  have hset {strings : List String} :
      Std.ExtTreeSet.ofList strings compare = names ↔
        ∀ name, name ∈ strings ↔ name ∈ names.toList := by
    have hmem {name : String} : name ∈ strings ↔ name ∈ Std.ExtTreeSet.ofList strings compare := by
      rw [Std.ExtTreeSet.mem_ofList, List.contains_iff_mem]
    simp only [hmem, Std.ExtTreeSet.mem_toList]
    exact ⟨fun h _ => by rw [h], Std.ExtTreeSet.ext_mem⟩
  have hstrings {strings : List String} :
      r.strings "provided_trait_methods" = .ok strings ↔
        Json.member? r.members "provided_trait_methods" = some (.ofStrings strings) := by
    have h : r.strings "provided_trait_methods" = .ok strings ↔ _ :=
      field_eq_ok_iff_exists (p := fun w strings => w.Contains (.ofStrings strings))
        fun _ _ => Json.readItems_eq_ok fun _ _ => Json.asString_eq_ok
    simpa only [Json.contains_ofStrings, exists_eq_right] using h
  rw [Json.hasField_iff (by simp [Json.ofStrings])]
  simp only [hstrings, hset, Json.ContainsAt, Json.ofStrings]
  constructor
  · intro h
    rcases h with ⟨strings, hmember, hmem⟩
    exact ⟨_, hmember, strings.map .str, rfl, strings, rfl, by simpa using hmem⟩
  · intro h
    rcases h with ⟨_, hmember, _, rfl, strings, rfl, hmem⟩
    exact ⟨strings, hmember, by simpa using hmem⟩

theorem Payload.tag_of_ofRecord {payload : Payload} {tag : String}
    (h : Payload.ofRecord r tag = .ok payload) : tag = payload.tag := by
  unfold Payload.ofRecord at h
  split at h
  all_goals simp only [bind_eq_ok, pure_eq_ok, Record.unknownTag, reduceCtorEq] at h
  all_goals grind [Payload.tag]

theorem Payload.ofRecord_eq_ok {payload : Payload} :
    Payload.ofRecord r payload.tag = .ok payload ↔
      Json.ContainsFields r.members payload.members := by
  have hdiscriminant {discriminant} :
      r.optional "discriminant" (Discriminant.read ·) = .ok discriminant ↔ _ :=
    Record.optional_eq_ok (fun _ _ => Discriminant.read_eq_ok) (by simp)
      fun _ => by simp [Discriminant.toJson]
  have hstyle {key style} (hkey : key ∉ Json.specialKeys) :
      r.field key (Json.asVariant .structStyle StructStyle.ofName? ·) = .ok style ↔
        Json.HasField r.members key style.toJson :=
    Record.field_eq_ok (fun _ _ => Json.asVariant_eq_ok StructStyle.ofName?_name) hkey
      fun _ => by simp
  have hmacro {style} :
      r.field "kind" (Json.asVariant .macroStyle MacroStyle.ofName? ·) = .ok style ↔
        Json.HasField r.members "kind" style.toJson :=
    Record.field_eq_ok (fun _ _ => Json.asVariant_eq_ok MacroStyle.ofName?_name) (by simp)
      fun _ => by simp
  rcases payload with ⟨⟨_, _, _⟩⟩ | _ | ⟨⟨_, _, _ | _, _⟩⟩ | ⟨⟨_, _, _, _⟩⟩ | ⟨⟨_, _, _, _, _⟩⟩ |
    _ | ⟨⟨_, _, _, _⟩⟩ | ⟨⟨_, _, _, _ | _⟩⟩ | _ | ⟨⟨_, _, _, _, _, _⟩⟩ | ⟨⟨_, _⟩⟩ | _ |
    ⟨⟨_, _, _, _, _, _, _, _, _⟩⟩ | ⟨⟨_, _⟩⟩ | ⟨⟨_, _⟩⟩ | _ | ⟨⟨_, _, _⟩⟩ | _ | _ | ⟨⟨_, _⟩⟩ | _ |
    _ | _
  case impl =>
    simp only [Payload.ofRecord, Payload.tag, Payload.members, Json.containsFields_cons,
      bind_eq_ok, pure_eq_ok, ← Record.names_eq_ok]
    simp [-Bool.exists_bool, Record.generics_eq_ok, Record.type_eq_ok, Record.type?_eq_ok]
    grind
  all_goals
    simp [-Bool.exists_bool, Payload.ofRecord, Payload.tag, Payload.members,
      Json.containsFields_append, Record.generics_eq_ok, Record.type_eq_ok, Record.type?_eq_ok,
      Record.bounds_eq_ok, Signature.ofRecord_eq_ok, Constant.ofRecord_eq_ok Category.exact_read,
      hdiscriminant, hstyle, hmacro]

theorem Payload.read_eq_ok {payload : Payload} :
    Payload.read v = .ok payload ↔ v.Contains payload.toJson := by
  refine Record.asRecord_bind_eq_ok rfl fun r => ?_
  refine Record.tagged_eq_ok ⟨_, rfl⟩ (fun _ => Payload.tag_of_ofRecord) (fun htag => ?_)
  simp [r.contains_obj, Payload.toJson, htag, Payload.ofRecord_eq_ok]

theorem Visibility.read_eq_ok {visibility : Visibility} :
    Visibility.read v = .ok visibility ↔ v.Contains visibility.toJson := by
  refine Record.asRecord_bind_eq_ok (by cases visibility <;> rfl) fun r => ?_
  cases visibility
  all_goals
    refine Record.tagged_eq_ok ⟨_, rfl⟩ (fun s h => ?_) (fun htag => ?_)
    · split at h <;> simp [Record.unknownTag] at h ⊢
    · simp [r.contains_obj, htag, Visibility.toJson]

theorem Position.read_eq_ok {position : Position} :
    Position.read v = .ok position ↔ v.Contains position.toJson := by
  obtain ⟨line, column⟩ := position
  have hpair {line column : UInt64} :
      v.readPair (Json.asUInt64 ·) (Json.asUInt64 ·) = .ok (line, column) ↔
        v.Contains (Position.toJson ⟨line, column⟩) :=
    Json.readPair_eq_ok (fun _ _ => Json.asUInt64_eq_ok) (fun _ _ => Json.asUInt64_eq_ok)
  simp [Position.read, hpair]

theorem Span.read_eq_ok {span : Span} : Span.read v = .ok span ↔ v.Contains span.toJson := by
  refine Record.asRecord_bind_eq_ok rfl fun r => ?_
  have hposition {key position} (hkey : key ∉ Json.specialKeys) :
      r.field key (Position.read ·) = .ok position ↔
        Json.HasField r.members key position.toJson :=
    Record.field_eq_ok (fun _ _ => Position.read_eq_ok) hkey fun _ => by simp [Position.toJson]
  obtain ⟨filename, first, last⟩ := span
  simp [r.contains_obj, Span.toJson, hposition]

theorem Deprecation.read_eq_ok {deprecation : Deprecation} :
    Deprecation.read v = .ok deprecation ↔ v.Contains deprecation.toJson := by
  refine Record.asRecord_bind_eq_ok rfl fun r => ?_
  obtain ⟨since, note⟩ := deprecation
  simp [r.contains_obj, Deprecation.toJson]

theorem Item.readLink_eq_ok {text : String} {target : Json} {link : String × ItemId} :
    Item.readLink text target = .ok link ↔ (text, target) = (link.1, link.2.toJson) := by
  obtain ⟨text', id⟩ := link
  simp only [readLink, bind_eq_ok, pure_eq_ok, Json.asId_eq_ok, ItemId.toJson, Json.contains_str,
    Prod.mk.injEq]
  constructor
  · intro h
    rcases h with ⟨_, htarget, rfl, rfl⟩
    exact ⟨rfl, htarget⟩
  · intro h
    rcases h with ⟨rfl, htarget⟩
    exact ⟨id, htarget, rfl, rfl⟩

theorem Record.readLinks_eq_ok {links : List (String × ItemId)} :
    r.entries "links" (fun text target => Item.readLink text target) = .ok links ↔
      Json.member? r.members "links" =
        some (.obj (links.map fun link => (link.1, link.2.toJson))) := by
  rw [entries_eq_ok (p := fun m link => m = (link.1, link.2.toJson))
    fun _ _ _ => Item.readLink_eq_ok]
  simp only [← List.forall₂_map_right_iff, List.forall₂_eq_eq_eq, exists_eq_right]

/-- Where the keys of a table of links differ, it contains precisely the tables with its links. -/
theorem Json.containsAt_links {members : List (String × Json)} (h : (obj members).Canonical)
    {links : Table String ItemId} :
    ContainsAt (some "links") (.obj members)
        (.obj (links.toList.map fun link => (link.1, link.2.toJson))) ↔
      members = links.toList.map fun link => (link.1, link.2.toJson) := by
  have hnodup := h.1.nodup_keys
  have hascending : Table.Ascending (links.toList.map fun link => (link.1, link.2.toJson)) :=
    List.pairwise_map.2 (Table.ascending_toList links)
  have hfields : ContainsFields members (links.toList.map fun link => (link.1, link.2.toJson)) ↔
      ∀ m ∈ links.toList.map fun link => (link.1, link.2.toJson), m ∈ members := by
    rw [containsFields_iff, List.forall_mem_map, List.forall_mem_map]
    simp only [hasField_iff, member?_eq_some_iff hnodup, ContainsAt, ItemId.toJson, ne_eq,
      reduceCtorEq, not_false_eq_true, and_true, exists_eq_right]
  simp only [ContainsAt, obj.injEq, exists_eq_left', forall_true_left, hfields]
  constructor
  · intro h
    rcases h with ⟨hsubset, hkeys⟩
    refine h.1.ext hascending fun m => ⟨fun hm => ?_, hsubset m⟩
    obtain ⟨m', hm', hkey⟩ := List.mem_map.1 ((hkeys m.1).1 (List.mem_map_of_mem hm))
    rwa [← List.inj_on_of_nodup_map hnodup (hsubset m' hm') hm hkey]
  · rintro rfl
    exact ⟨fun _ hm => hm, fun _ => Iff.rfl⟩

/-- Links are read as a table, provided that no two of them have the same text. -/
theorem Record.links_eq_ok (hv : v.Canonical) (links : Table String ItemId) :
    (∃ entries, r.entries "links" (fun text target => Item.readLink text target) = .ok entries ∧
        Table.ofEntries entries = links) ↔
      Json.HasField r.members "links"
        (.obj (links.toList.map fun (text, id) => (text, id.toJson))) := by
  obtain ⟨members, rfl⟩ := r
  rw [Json.hasField_iff (by simp)]
  simp only [readLinks_eq_ok]
  constructor
  · intro h
    rcases h with ⟨entries, hmember, rfl⟩
    have hascending := (hv.member? hmember).1
    refine ⟨_, hmember, (Json.containsAt_links (hv.member? hmember)).2 ?_⟩
    rw [Table.toList_ofEntries]
    exact List.pairwise_map.1 hascending
  · intro h
    rcases h with ⟨w, hmember, hcontains⟩
    obtain ⟨members, rfl⟩ : ∃ members, w = .obj members := by
      simp only [Json.ContainsAt] at hcontains
      exact ⟨_, hcontains.choose_spec.1⟩
    have h := (Json.containsAt_links (hv.member? hmember)).1 hcontains
    exact ⟨links.toList, by rw [hmember, h], Table.ofEntries_toList links⟩

namespace Record

theorem span?_eq_ok (hkey : key ∉ Json.specialKeys) {span : Option Span} :
    r.optional key (Span.read ·) = .ok span ↔
      Json.HasField r.members key (span.elim .null Span.toJson) :=
  optional_eq_ok (fun _ _ => Span.read_eq_ok) hkey fun _ => by simp [Span.toJson]

theorem visibility_eq_ok (hkey : key ∉ Json.specialKeys) {visibility : Visibility} :
    r.field key (Visibility.read ·) = .ok visibility ↔
      Json.HasField r.members key visibility.toJson :=
  field_eq_ok (fun _ _ => Visibility.read_eq_ok) hkey fun visibility => by
    cases visibility <;> simp [Visibility.toJson]

theorem deprecation?_eq_ok (hkey : key ∉ Json.specialKeys) {deprecation : Option Deprecation} :
    r.optional key (Deprecation.read ·) = .ok deprecation ↔
      Json.HasField r.members key (deprecation.elim .null Deprecation.toJson) :=
  optional_eq_ok (fun _ _ => Deprecation.read_eq_ok) hkey fun _ => by simp [Deprecation.toJson]

theorem payload_eq_ok (hkey : key ∉ Json.specialKeys) {payload : Payload} :
    r.field key (Payload.read ·) = .ok payload ↔ Json.HasField r.members key payload.toJson :=
  field_eq_ok (fun _ _ => Payload.read_eq_ok) hkey fun _ => by simp [Payload.toJson]

end Record

theorem Item.ofRecord_eq_ok (hv : v.Canonical) {item : Item} {id : ItemId}
    (hid : Json.HasField r.members "id" id.toJson) :
    Item.ofRecord id r = .ok item ↔ item.id = id ∧ v.Contains item.toJson := by
  obtain ⟨id', crateId, name, span, visibility, docs, links, attrs, deprecation, payload⟩ := item
  cases span <;> cases deprecation
  all_goals
    simp only [Item.toJson, r.contains_obj, Json.containsFields_cons, ← Record.links_eq_ok hv,
      Item.ofRecord]
    simp [Record.span?_eq_ok, Record.visibility_eq_ok, Record.deprecation?_eq_ok,
      Record.payload_eq_ok, Json.ofNat]
    grind

end CrateDocs
