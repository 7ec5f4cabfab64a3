import Mathlib.Data.Prod.Lex
import Mathlib.Data.Set.Function
import Mathlib.Order.Bounds.Basic
import ResourceQuery.Proofs.DiagnosticFidelity

/-! Locations and offsets. The location of an offset is told by the newlines before it and by the
bytes since the last of them; neither mentions how a text is walked over (`Locates`). An offset that
is no boundary of characters has the location of the last boundary before it. Between boundaries and
their locations nothing is lost: the order of the text is that of lines and columns, and the offset
is where its line starts and as many bytes on (`locations_exact`). -/
namespace ResourceQuery.LocationResolution
open ResourceQuery.Text DiagnosticFidelity StreamTiling

/-! ## Locations without walking -/

/-- The offset is between two characters of the text, or at one of its ends. -/
def Boundary (text : String) (offset : Nat) : Prop := (⟨offset⟩ : String.Pos.Raw).IsValid text

/-- Where a line of the text starts: the first one at the first byte, and each other one right
behind a newline, before which there are all other newlines of the lines above. -/
inductive LineStart (text : String) : Nat → Nat → Prop where
  | first : LineStart text 1 0
  | next (split : text.toList = before ++ '\n' :: behind) :
      LineStart text (before.count '\n' + 2) (utf8Length before + 1)

/-- The location of a boundary. Its line is told by the newlines before the boundary, its column by
the bytes since that line started, and both count from one. -/
structure Pinpoints (text : String) (boundary : Nat) (location : Location) : Prop where
  line : ∃ before behind, text.toList = before ++ behind ∧ utf8Length before = boundary ∧
    location.line = 1 + before.count '\n'
  column : ∃ start, LineStart text location.line start ∧ 0 < location.column ∧
    boundary = start + location.column - 1

/-- The boundaries that are neither behind the offset nor behind the end of the text. -/
def boundariesUpTo (text : String) (offset : Nat) : Set Nat :=
  {boundary | Boundary text boundary ∧ boundary ≤ min offset text.utf8ByteSize}

/-- The location of any offset is that of the last boundary up to it. -/
def Locates (text : String) (offset : Nat) (location : Location) : Prop :=
  ∃ boundary, IsGreatest (boundariesUpTo text offset) boundary ∧ Pinpoints text boundary location

/-- Locations are ordered by lines, and on one line by columns. -/
def rank (location : Location) : ℕ ×ₗ ℕ := toLex (location.line, location.column)

/-- The byte behind so many newlines. -/
def behindNewlines : Nat → List Char → Nat
  | 0, _ => 0
  | _ + 1, [] => 0
  | newlines + 1, c :: cs =>
    c.utf8Size + behindNewlines (if c = '\n' then newlines else newlines + 1) cs

/-- The offset that a location is the location of. -/
def offsetOf (text : String) (location : Location) : Nat :=
  behindNewlines (location.line - 1) text.toList + location.column - 1

variable {text : String} {before behind before' behind' : List Char}
  {offset boundary boundary' : Nat} {location location' : Location}

/-! ## Boundaries -/

theorem boundary_iff : Boundary text boundary ↔
    ∃ before behind, text.toList = before ++ behind ∧ utf8Length before = boundary := by
  constructor
  · intro valid
    obtain ⟨front, back, whole, place⟩ := String.Pos.Raw.isValid_iff_exists_append.mp valid
    refine ⟨front.toList, back.toList, by rw [whole, String.toList_append], ?_⟩
    rw [utf8Length_toList]
    exact congrArg String.Pos.Raw.byteIdx place.symm
  · rintro ⟨before, behind, split, rfl⟩
    exact StreamTiling.boundary split

theorem text_size (split : text.toList = before ++ behind) :
    text.utf8ByteSize = utf8Length before + utf8Length behind := by
  rw [← utf8Length_toList, split, utf8Length_append]

/-- Of two beginnings of one text, the one that takes no more bytes is a beginning of the other. -/
theorem fronts_nested (split : text.toList = before ++ behind)
    (split' : text.toList = before' ++ behind') (within : utf8Length before ≤ utf8Length before') :
    before <+: before' := by
  rcases List.prefix_or_prefix_of_prefix ⟨behind, split.symm⟩ ⟨behind', split'.symm⟩ with
    shorter | ⟨more, rfl⟩
  · exact shorter
  · have short := length_le_utf8Length more
    rw [utf8Length_append] at within
    obtain rfl : more = [] := List.eq_nil_of_length_eq_zero (by omega)
    exact ⟨[], by rw [List.append_nil, List.append_nil]⟩

/-- So the bytes before a boundary tell the characters before it. -/
theorem front_unique (split : text.toList = before ++ behind)
    (split' : text.toList = before' ++ behind') (same : utf8Length before = utf8Length before') :
    before = before' := by
  have one := fronts_nested split split' same.le
  have other := fronts_nested split' split same.ge
  exact one.eq_of_length_le other.length_le

/-- The last boundary up to an offset is the one where the next character does not fit any more. -/
theorem front_greatest (split : text.toList = before ++ behind)
    (within : utf8Length before ≤ offset)
    (stop : ∀ c, behind.head? = some c → offset < utf8Length before + c.utf8Size) :
    IsGreatest (boundariesUpTo text offset) (utf8Length before) := by
  have size := text_size split
  refine ⟨⟨boundary_iff.mpr ⟨before, behind, split, rfl⟩, by omega⟩, ?_⟩
  rintro boundary ⟨valid, bound⟩
  obtain ⟨before', behind', split', rfl⟩ := boundary_iff.mp valid
  by_contra later
  -- A later boundary has the next character before it, and that one does not fit.
  obtain ⟨more, rfl⟩ := fronts_nested split split' (by omega)
  cases more with
  | nil => exact later (by rw [List.append_nil])
  | cons c more =>
    have next : behind = c :: (more ++ behind') := by
      rw [split, List.append_assoc] at split'
      exact List.append_cancel_left split'
    have beyond := stop c (by rw [next]; rfl)
    simp only [utf8Length_append, utf8Length_cons] at bound
    omega

/-! ## Walking -/

/-- Walking goes on while the next character fits. -/
theorem advance_stops (here : Location) (bytes : Nat) (cs : List Char) : ∃ before behind,
    cs = before ++ behind ∧ utf8Length before ≤ bytes ∧
      (∀ c, behind.head? = some c → bytes < utf8Length before + c.utf8Size) ∧
      here.advance bytes cs = before.foldl Location.after here := by
  fun_induction Location.advance here bytes cs with
  | case1 here bytes => exact ⟨[], [], rfl, Nat.zero_le bytes, by simp, rfl⟩
  | case2 here bytes c cs fits ih =>
    obtain ⟨before, behind, rfl, within, stop, walked⟩ := ih
    refine ⟨c :: before, behind, rfl, ?_, fun d head => ?_, walked⟩
    · rw [utf8Length_cons]
      omega
    · have beyond := stop d head
      rw [utf8Length_cons]
      omega
  | case3 here bytes c cs large =>
    refine ⟨[], c :: cs, rfl, Nat.zero_le bytes, ?_, rfl⟩
    rintro d ⟨⟩
    rw [utf8Length_nil]
    omega

/-- A newline starts the next line, and any other character takes its bytes of the line that there
is. -/
theorem pinpoints_after {c : Char} (pinpoints : Pinpoints text (utf8Length before) location)
    (split : text.toList = before ++ c :: behind) :
    Pinpoints text (utf8Length before + c.utf8Size) (location.after c) := by
  obtain ⟨⟨before', behind', split', place, line⟩, start, starts, positive, column⟩ := pinpoints
  obtain rfl := front_unique split split' place.symm
  have whole : text.toList = before ++ [c] ++ behind := split.trans (List.append_cons ..)
  have size : utf8Length (before ++ [c]) = utf8Length before + c.utf8Size := by simp
  by_cases newline : c = '\n'
  · subst newline
    have below : (location.after '\n').line = before.count '\n' + 2 := by
      simp only [Location.after, ↓reduceIte, line]
      omega
    refine ⟨⟨before ++ ['\n'], behind, whole, size, ?_⟩,
      utf8Length before + 1, ?_, Nat.one_pos, rfl⟩
    · rw [below, List.count_append, List.count_singleton_self]
      omega
    · rw [below]
      exact .next split
  · simp only [Location.after, newline, ↓reduceIte]
    refine ⟨⟨before ++ [c], behind, whole, size, ?_⟩, start, starts,
      Nat.add_pos_left positive _, ?_⟩
    · rw [line, List.count_append, List.count_singleton, beq_false_of_ne newline]
      rfl
    · dsimp only
      omega

/-- So what has been walked over tells where one is. -/
theorem walk_pinpoints (split : text.toList = before ++ behind) :
    Pinpoints text (utf8Length before) (before.foldl Location.after .start) := by
  induction before using List.reverseRecOn generalizing behind with
  | nil => exact ⟨⟨[], behind, split, rfl, rfl⟩, 0, .first, Nat.one_pos, rfl⟩
  | append_singleton before c ih =>
    rw [List.append_assoc, List.singleton_append] at split
    rw [List.foldl_append, utf8Length_append]
    exact pinpoints_after (ih split) split

theorem resolve_locates (text : String) (offset : Nat) :
    Locates text offset (Location.resolve text offset) := by
  obtain ⟨before, behind, split, within, stop, walked⟩ :=
    advance_stops Location.start offset text.toList
  refine ⟨utf8Length before, front_greatest split within stop, ?_⟩
  rw [Location.resolve, walked]
  exact walk_pinpoints split

/-! ## Back to the offset -/

theorem behindNewlines_front (before behind : List Char) :
    behindNewlines (before.count '\n' + 1) (before ++ '\n' :: behind) = utf8Length before + 1 := by
  induction before with
  | nil => simp [behindNewlines]; rfl
  | cons c before ih =>
    by_cases newline : c = '\n'
    · subst newline
      simp [behindNewlines, ih]
      omega
    · simp [behindNewlines, newline, ih]
      omega

/-- A line starts at one byte only. -/
theorem lineStart_eq {line start : Nat} (starts : LineStart text line start) :
    behindNewlines (line - 1) text.toList = start := by
  cases starts with
  | first => rw [Nat.sub_self, behindNewlines]
  | @next before behind split =>
    rw [split]
    exact behindNewlines_front before behind

theorem pinpoints_offset (pinpoints : Pinpoints text boundary location) :
    offsetOf text location = boundary := by
  obtain ⟨-, start, starts, -, rfl⟩ := pinpoints
  rw [offsetOf, lineStart_eq starts]

/-- A later boundary is on a later line, or further on the same line. -/
theorem pinpoints_lt (one : Pinpoints text boundary location)
    (other : Pinpoints text boundary' location') (earlier : boundary < boundary') :
    rank location < rank location' := by
  obtain ⟨⟨before, behind, split, place, line⟩, start, starts, positive, column⟩ := one
  obtain ⟨⟨before', behind', split', place', line'⟩, start', starts', positive', column'⟩ := other
  obtain ⟨more, rfl⟩ := fronts_nested split split' (by omega)
  rw [rank, rank, Prod.Lex.toLex_lt_toLex]
  rw [List.count_append] at line'
  by_cases same : location.line = location'.line
  · rw [same] at starts
    have one_start := (lineStart_eq starts).symm.trans (lineStart_eq starts')
    exact .inr ⟨same, by dsimp only; omega⟩
  · exact .inl (by dsimp only; omega)

/-- A boundary has one location. -/
theorem pinpoints_unique (one : Pinpoints text boundary location)
    (other : Pinpoints text boundary location') : location = location' := by
  obtain ⟨⟨before, behind, split, place, line⟩, start, starts, positive, column⟩ := one
  obtain ⟨⟨before', behind', split', place', line'⟩, start', starts', positive', column'⟩ := other
  obtain rfl := front_unique split split' (place.trans place'.symm)
  have same : location.line = location'.line := line.trans line'.symm
  rw [same] at starts
  have one_start := (lineStart_eq starts).symm.trans (lineStart_eq starts')
  obtain ⟨row, column⟩ := location
  obtain ⟨row', column'⟩ := location'
  dsimp only at same positive positive' column column'
  exact congrArg₂ Location.mk same (by omega)

theorem locates_iff : Locates text offset location ↔ Location.resolve text offset = location := by
  constructor
  · rintro ⟨boundary, greatest, pinpoints⟩
    obtain ⟨boundary', greatest', pinpoints'⟩ := resolve_locates text offset
    obtain rfl := greatest.unique greatest'
    exact pinpoints_unique pinpoints' pinpoints
  · rintro rfl
    exact resolve_locates text offset

/-- The last boundary up to a boundary is this boundary. -/
theorem boundary_greatest (valid : Boundary text boundary) :
    IsGreatest (boundariesUpTo text boundary) boundary := by
  obtain ⟨before, behind, split, place⟩ := boundary_iff.mp valid
  have size := text_size split
  exact ⟨⟨valid, by omega⟩, fun other member => member.2.trans (Nat.min_le_left ..)⟩

theorem resolve_pinpoints (valid : Boundary text boundary) :
    Pinpoints text boundary (Location.resolve text boundary) := by
  obtain ⟨other, greatest, pinpoints⟩ := resolve_locates text boundary
  obtain rfl := greatest.unique (boundary_greatest valid)
  exact pinpoints

/-- An offset has the location of the last boundary up to it. -/
theorem resolve_greatest (greatest : IsGreatest (boundariesUpTo text offset) boundary) :
    Location.resolve text offset = Location.resolve text boundary :=
  locates_iff.mp ⟨boundary, greatest, resolve_pinpoints greatest.1.1⟩

/-! ## Exactness -/

/-- What a way to resolve the offsets of a text has to comply with. -/
structure Resolves (text : String) (resolve : Nat → Location) : Prop where
  /-- It gives each offset its location, and there is no other one. -/
  exact : ∀ offset location, Locates text offset location ↔ resolve offset = location
  increasing : StrictMonoOn (fun boundary => rank (resolve boundary)) {b | Boundary text b}
  injective : Set.InjOn resolve {b | Boundary text b}
  recovered : Set.LeftInvOn (offsetOf text) resolve {b | Boundary text b}
  /-- Offsets inside of characters do not disturb the order. -/
  ordered : Monotone fun offset => rank (resolve offset)
  past_end : ∀ offset, text.utf8ByteSize ≤ offset → resolve offset = resolve text.utf8ByteSize

/-- **Locations are exact and in order.** Every offset, however large, gets the line and the column
of the last boundary up to it, and nothing else would be its location. Of two boundaries the later
one has the greater location, so none share one, and each can be had back from its own. Behind the
end every offset is located at the end. -/
theorem locations_exact (text : String) : Resolves text (Location.resolve text) := by
  have recovered : Set.LeftInvOn (offsetOf text) (Location.resolve text) {b | Boundary text b} :=
    fun boundary valid => pinpoints_offset (resolve_pinpoints valid)
  have increasing : StrictMonoOn (fun boundary => rank (Location.resolve text boundary))
      {b | Boundary text b} :=
    fun one valid other valid' => pinpoints_lt (resolve_pinpoints valid) (resolve_pinpoints valid')
  refine ⟨fun offset location => locates_iff, increasing, recovered.injOn, recovered, ?_, ?_⟩
  · intro one other earlier
    obtain ⟨boundary, greatest, -⟩ := resolve_locates text one
    obtain ⟨boundary', greatest', -⟩ := resolve_locates text other
    have bound := greatest.1.2
    -- The boundary of the earlier offset is also one of those up to the later offset.
    have nested := greatest'.2 ⟨greatest.1.1, by omega⟩
    dsimp only
    rw [resolve_greatest greatest, resolve_greatest greatest']
    exact increasing.monotoneOn greatest.1.1 greatest'.1.1 nested
  · intro offset beyond
    obtain ⟨boundary, greatest, -⟩ := resolve_locates text offset
    have same : boundariesUpTo text offset = boundariesUpTo text text.utf8ByteSize := by
      rw [boundariesUpTo, boundariesUpTo, Nat.min_eq_right beyond, Nat.min_self]
    have ends : IsGreatest (boundariesUpTo text text.utf8ByteSize) boundary := same ▸ greatest
    rw [resolve_greatest greatest, resolve_greatest ends]

/-- The second byte of a character and what is behind the end count for nothing. -/
theorem locations_exact_inside :
    let text := "é\nb"
    Locates text 1 ⟨1, 1⟩ ∧ Locates text 2 ⟨1, 3⟩ ∧ Locates text (2 ^ 64 - 1) ⟨2, 2⟩ ∧
      offsetOf text ⟨2, 1⟩ = 3 := by
  intro text
  have resolves := locations_exact text
  have third : Boundary text 3 := boundary_iff.mpr ⟨['é', '\n'], ['b'], by decide, by decide⟩
  have here : Location.resolve text 3 = ⟨2, 1⟩ := by decide
  have back : offsetOf text (Location.resolve text 3) = 3 := resolves.recovered third
  rw [here] at back
  exact ⟨(resolves.exact _ _).mpr (by decide), (resolves.exact _ _).mpr (by decide),
    (resolves.exact _ _).mpr (by decide +kernel), back⟩

end ResourceQuery.LocationResolution
