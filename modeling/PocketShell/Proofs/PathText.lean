import PocketShell.Path

/-!
# The text of paths

Joining two paths puts the components of the one before those of the other, and a normalised path is
made of the parts that are left on the text, which are names unless they hold U+0000. Normalising
brings no character in but slashes.
-/

namespace PocketShell

namespace Text

theorem mem_of_mem_fields {separator c : Char} {t field : Text}
    (hf : field ∈ fields separator t) (hc : c ∈ field) : c ∈ t := by
  induction t generalizing field with
  | nil => simp_all [fields]
  | cons d rest ih =>
    unfold fields at hf
    split at hf
    · rcases List.mem_cons.1 hf with rfl | hf
      · simp at hc
      · exact List.mem_cons_of_mem _ (ih hf hc)
    · split at hf
      · next h => exact absurd h (fields_ne_nil separator rest)
      · next first more h =>
        rw [h] at ih
        rcases List.mem_cons.1 hf with rfl | hf
        · rcases List.mem_cons.1 hc with rfl | hc
          · exact List.mem_cons_self
          · exact List.mem_cons_of_mem _ (ih List.mem_cons_self hc)
        · exact List.mem_cons_of_mem _ (ih (List.mem_cons_of_mem _ hf) hc)

theorem not_mem_field {separator c : Char} {t : Text} (h : c ∉ t) :
    ∀ field ∈ fields separator t, c ∉ field :=
  fun _ hf hc => h (mem_of_mem_fields hf hc)

theorem mem_joined {separator : Text} {parts : List Text} {c : Char}
    (h : c ∈ joined separator parts) : c ∈ separator ∨ ∃ part ∈ parts, c ∈ part := by
  induction parts with
  | nil => simp [joined] at h
  | cons part rest ih =>
    cases rest with
    | nil => exact .inr ⟨part, List.mem_cons_self, h⟩
    | cons next more =>
      simp only [joined, List.mem_append] at h
      rcases h with (h | h) | h
      · exact .inr ⟨part, List.mem_cons_self, h⟩
      · exact .inl h
      · apply (ih h).imp_right
        rintro ⟨other, hmem, hc⟩
        exact ⟨other, List.mem_cons_of_mem _ hmem, hc⟩

theorem exists_joined_concat (separator : Text) (parts : List Text) (last : Text) :
    ∃ front, joined separator (parts ++ [last]) = front ++ last := by
  induction parts with
  | nil => exact ⟨[], rfl⟩
  | cons part rest ih =>
    obtain ⟨front, hfront⟩ := ih
    refine ⟨part ++ separator ++ front, ?_⟩
    rw [List.cons_append, joined_cons _ _ (by simp), hfront]
    simp only [List.append_assoc]

end Text

namespace Path

variable {a b p : Text} {l : Location} {n : Name} {c : Char}

theorem isAbsolute_of_no_slash (h : '/' ∉ b) : isAbsolute b = false := by
  cases b with
  | nil => rfl
  | cons c b => simpa [isAbsolute] using fun hc : c = '/' => h (hc ▸ List.mem_cons_self)

theorem endsInSlash_append (h : b ≠ []) : endsInSlash (a ++ b) = endsInSlash b := by
  cases hb : b.getLast? with
  | none => simp [h] at hb
  | some c => simp [endsInSlash, List.getLast?_append, hb]

theorem endsInSlash_of_no_slash (h : '/' ∉ b) : endsInSlash b = false := by
  cases hb : b.getLast? with
  | none => simp [endsInSlash, hb]
  | some c =>
    have hmem : c ∈ b := List.mem_of_getLast? hb
    simpa [endsInSlash, hb] using fun hc : c = '/' => h (hc ▸ hmem)

theorem join_of_relative (h : isAbsolute b = false) :
    join a b = if a = [] ∨ endsInSlash a then a ++ b else a ++ '/' :: b := by
  simp [join, h]

theorem exists_join_eq (h : isAbsolute b = false) : ∃ front, join a b = a ++ front ++ b := by
  rw [join_of_relative h]
  split
  · exact ⟨[], by rw [List.append_nil]⟩
  · exact ⟨['/'], by rw [List.append_assoc, List.singleton_append]⟩

theorem mem_join (h : isAbsolute b = false) (hc : c ∈ a ∨ c ∈ b) : c ∈ join a b := by
  obtain ⟨front, hfront⟩ := exists_join_eq (a := a) h
  rw [hfront, List.mem_append, List.mem_append]
  exact hc.imp_left .inl

theorem isAbsolute_join (ha : a ≠ []) (hb : '/' ∉ b) : isAbsolute (join a b) = isAbsolute a := by
  obtain ⟨front, hfront⟩ := exists_join_eq (a := a) (isAbsolute_of_no_slash hb)
  cases a with
  | nil => exact absurd rfl ha
  | cons c a =>
    rw [hfront]
    rfl

theorem components_cons_slash (p : Text) : components ('/' :: p) = components p :=
  components_append [] p

theorem components_join (h : isAbsolute b = false) :
    components (join a b) = components a ++ components b := by
  rw [join_of_relative h]
  split
  · next ha =>
    rcases ha with rfl | ha
    · rfl
    · have hlast : a.getLast? = some '/' := by simpa [endsInSlash] using ha
      obtain ⟨front, rfl⟩ := List.getLast?_eq_some_iff.1 hlast
      have hfront : components (front ++ ['/']) = components front ++ [] :=
        components_append front []
      rw [List.append_assoc, List.singleton_append, components_append, hfront, List.append_nil]
  · exact components_append a b

theorem not_mem_join (hc : c ≠ '/') (ha : c ∉ a) (hb : c ∉ b) : c ∉ join a b := by
  unfold join
  split
  · exact hb
  · split
    · exact fun h => (List.mem_append.1 h).elim ha hb
    · intro h
      rw [List.mem_append, List.mem_cons] at h
      rcases h with h | h | h
      · exact ha h
      · exact hc h
      · exact hb h

theorem way_join (h : isAbsolute b = false) (hne : b ≠ []) :
    way (join a b) = components a ++ way b := by
  obtain ⟨front, hfront⟩ := exists_join_eq (a := a) h
  have hend : endsInSlash (join a b) = endsInSlash b := by rw [hfront, endsInSlash_append hne]
  rw [way, way, components_join h, hend, List.append_assoc]

theorem components_text (n : Name) : components n.text = [.name n] := by
  simp [components, Text.fields_of_not_mem n.no_slash, Component.ofText?_name]

theorem way_text (n : Name) : way n.text = [.name n] := by
  rw [way_of_not_endsInSlash (endsInSlash_of_no_slash n.no_slash), components_text]

theorem way_join_text (a : Text) (n : Name) : way (join a n.text) = components a ++ [.name n] := by
  rw [way_join (isAbsolute_of_no_slash n.no_slash) n.ne_nil, way_text]

theorem components_join_text (a : Text) (n : Name) :
    components (join a n.text) = components a ++ [.name n] := by
  rw [components_join (isAbsolute_of_no_slash n.no_slash), components_text]

/-- One component followed from a location without a tree. -/
def descend (l : Location) : Component → Location
  | .here => l
  | .up => l.tail
  | .name n => n :: l
  | .nothing => l

/-- The components of a path, followed from a location without a tree. -/
def spelledFrom (l : Location) (path : List Component) : Location :=
  path.foldl descend l

theorem spelledFrom_append (l : Location) (path rest : List Component) :
    spelledFrom l (path ++ rest) = spelledFrom (spelledFrom l path) rest :=
  List.foldl_append

theorem spelledFrom_names (l : Location) : spelledFrom [] (l.reverse.map .name) = l := by
  induction l with
  | nil => rfl
  | cons n above ih =>
    rw [List.reverse_cons, List.map_append, spelledFrom_append, ih]
    rfl

theorem mem_spelledFrom {path : List Component} (h : n ∈ spelledFrom l path) :
    n ∈ l ∨ .name n ∈ path := by
  induction path generalizing l with
  | nil => exact .inl h
  | cons c rest ih =>
    rcases ih h with h | h
    · cases c with
      | here => exact .inl h
      | up => exact .inl (List.mem_of_mem_tail h)
      | name m =>
        rcases List.mem_cons.1 h with rfl | h
        · exact .inr List.mem_cons_self
        · exact .inl h
      | nothing => exact .inl h
    · exact .inr (List.mem_cons_of_mem c h)

theorem lexicalStep_name (kept : List Text) (n : Name) :
    lexicalStep kept n.text = n.text :: kept := by
  simp [lexicalStep, n.ne_nil, n.ne_here, n.ne_up]

/-- A part is followed on the text as the component that it is, or not at all if it is empty. -/
theorem lexicalStep_map {part : Text} (hslash : '/' ∉ part) (hnul : '\x00' ∉ part)
    (l : Location) : lexicalStep (l.map Name.text) part =
      ((Component.ofText? part).elim l (descend l)).map Name.text := by
  by_cases hempty : part = []
  · subst hempty
    rfl
  by_cases hhere : part = ['.']
  · subst hhere
    rfl
  by_cases hup : part = ['.', '.']
  · subst hup
    exact List.map_tail.symm
  let n : Name := ⟨part, hempty, hslash, hnul, hhere, hup⟩
  have hn : Component.ofText? part = some (.name n) := Component.ofText?_name n
  rw [hn]
  exact lexicalStep_name (l.map Name.text) n

/-- What is kept of a path without U+0000 are the names of a location. -/
theorem parts_eq (h : '\x00' ∉ p) : parts p = (spelledFrom [] (components p)).map Name.text := by
  have hfields : ∀ field ∈ Text.fields '/' p, '/' ∉ field ∧ '\x00' ∉ field :=
    fun field hfield => ⟨Text.not_mem_of_mem_fields hfield, Text.not_mem_field h field hfield⟩
  have hfollowed : ∀ l : Location, (Text.fields '/' p).foldl lexicalStep (l.map Name.text) =
      (spelledFrom l (components p)).map Name.text := by
    unfold components
    generalize Text.fields '/' p = fields at hfields
    induction fields with
    | nil => exact fun l => rfl
    | cons field rest ih =>
      intro l
      obtain ⟨⟨hslash, hnul⟩, hrest⟩ := List.forall_mem_cons.1 hfields
      rw [List.foldl_cons, lexicalStep_map hslash hnul, ih hrest]
      cases hc : Component.ofText? field with
      | none => rw [List.filterMap_cons_none hc, Option.elim_none]
      | some c =>
        rw [List.filterMap_cons_some hc, Option.elim_some]
        rfl
  exact hfollowed []

theorem ne_nothing_of_mem_components {component : Component} (h : component ∈ components p) :
    component ≠ .nothing := by
  rintro rfl
  obtain ⟨field, -, hfield⟩ := List.mem_filterMap.1 h
  exact Component.ofText?_ne_nothing field hfield

theorem mem_ofParts {kept : List Text} (hc : c ∈ ofParts kept) :
    c = '/' ∨ ∃ part ∈ kept, c ∈ part := by
  rcases List.mem_cons.1 hc with rfl | hc
  · exact .inl rfl
  · rcases Text.mem_joined hc with hc | ⟨part, hpart, hc⟩
    · exact .inl (List.mem_singleton.1 hc)
    · exact .inr ⟨part, List.mem_reverse.1 hpart, hc⟩

theorem no_nul_ofLocation (l : Location) : '\x00' ∉ ofLocation l := by
  intro hnul
  rcases mem_ofParts hnul with hslash | ⟨part, hpart, hnul⟩
  · simp at hslash
  · obtain ⟨n, -, rfl⟩ := List.mem_map.1 hpart
    exact n.no_nul hnul

theorem endsInSlash_ofLocation (n : Name) (l : Location) :
    endsInSlash (ofLocation (n :: l)) = false := by
  obtain ⟨front, hfront⟩ := Text.exists_joined_concat ['/'] (l.map Name.text).reverse n.text
  have htext : ofLocation (n :: l) = '/' :: front ++ n.text := by
    rw [ofLocation, ofParts, List.map_cons, List.reverse_cons, hfront, List.cons_append]
  rw [htext, endsInSlash_append n.ne_nil, endsInSlash_of_no_slash n.no_slash]

theorem way_ofLocation (n : Name) (l : Location) :
    way (ofLocation (n :: l)) = (n :: l).reverse.map .name := by
  rw [way_of_not_endsInSlash (endsInSlash_ofLocation n l), components_ofLocation]

theorem mem_parts {part : Text} (h : part ∈ parts p) : part ∈ Text.fields '/' p := by
  have hkept : ∀ (fields kept : List Text), part ∈ fields.foldl lexicalStep kept →
      part ∈ kept ∨ part ∈ fields := by
    intro fields
    induction fields with
    | nil => exact fun kept hpart => .inl hpart
    | cons field rest ih =>
      intro kept hpart
      rcases ih (lexicalStep kept field) hpart with hpart | hpart
      · unfold lexicalStep at hpart
        split at hpart
        · exact .inl hpart
        · split at hpart
          · exact .inl (List.mem_of_mem_tail hpart)
          · exact (List.mem_cons.1 hpart).elim (fun hfield => .inr (hfield ▸ List.mem_cons_self))
              .inl
      · exact .inr (List.mem_cons_of_mem _ hpart)
  exact (hkept _ [] h).resolve_left List.not_mem_nil

theorem normalized_cases (p : Text) :
    ∃ front : Text, (front = [] ∨ front = ['/']) ∧ normalized p = front ++ ofParts (parts p) := by
  unfold normalized
  split
  · exact ⟨['/'], .inr rfl, rfl⟩
  · exact ⟨[], .inl rfl, rfl⟩

/-- A normalised path without U+0000 is the path of the location that its text spells, perhaps with
a second slash at its front. -/
theorem normalized_eq (h : '\x00' ∉ p) : ∃ front : Text, (front = [] ∨ front = ['/']) ∧
    normalized p = front ++ ofLocation (spelledFrom [] (components p)) := by
  obtain ⟨front, hfront, hp⟩ := normalized_cases p
  exact ⟨front, hfront, by rw [hp, parts_eq h]; rfl⟩

/-- A normalised path is made of the names that its text leaves. -/
theorem components_normalized (h : '\x00' ∉ p) :
    components (normalized p) = (spelledFrom [] (components p)).reverse.map .name := by
  obtain ⟨front, rfl | rfl, hp⟩ := normalized_eq h
  · rw [hp, List.nil_append, components_ofLocation]
  · rw [hp, List.singleton_append, components_cons_slash, components_ofLocation]

theorem endsInSlash_normalized (hp : '\x00' ∉ p) (h : spelledFrom [] (components p) = n :: l) :
    endsInSlash (normalized p) = false := by
  obtain ⟨front, -, hfront⟩ := normalized_eq hp
  have hne : ofLocation (n :: l) ≠ [] := List.cons_ne_nil _ _
  rw [hfront, h, endsInSlash_append hne, endsInSlash_ofLocation]

theorem mem_normalized (hc : c ∈ normalized p) : c = '/' ∨ c ∈ p := by
  obtain ⟨front, hfront, hp⟩ := normalized_cases p
  rw [hp, List.mem_append] at hc
  rcases hc with hc | hc
  · rcases hfront with rfl | rfl
    · simp at hc
    · exact .inl (List.mem_singleton.1 hc)
  · apply (mem_ofParts hc).imp_right
    rintro ⟨part, hpart, hc⟩
    exact Text.mem_of_mem_fields (mem_parts hpart) hc

theorem not_mem_normalized (hc : c ≠ '/') (hp : c ∉ p) : c ∉ normalized p :=
  fun h => (mem_normalized h).elim hc hp

end Path

end PocketShell
