import ScriptStore.Proofs.Fallible
import ScriptStore.Proofs.Json.Parsing

/-!
# Limits of values that are read

Whatever text a value is read from, no object in it repeats a key, since a field that comes twice is
set twice, and arrays and objects are nested 127 levels at most (`Json.fits_of_ofString?`).  Both
are kept by every token: what is open and what is complete fits inside the arrays and objects around
it (`Reading.Sound`).
-/

namespace ScriptStore

namespace Json

/-! ## Values that are read -/

/-- A value in a token has no parts. -/
def Token.Flat : Token → Prop
  | .atom value => value.Fits 0
  | _ => True

namespace Lexer

/-- An undelimited value has no parts. -/
theorem flat_ofAtom? {cs : List Char} {token : Token} (h : Token.ofAtom? cs = some token) :
    token.Flat := by
  unfold Token.ofAtom? at h
  split at h
  · obtain rfl := Option.some.inj h
    exact fits_null
  split at h
  · obtain rfl := Option.some.inj h
    exact fits_bool true
  split at h
  · obtain rfl := Option.some.inj h
    exact fits_bool false
  · obtain ⟨n, -, rfl⟩ := Option.map_eq_some_iff.mp h
    exact fits_num n

theorem flat_ofChar? {c : Char} {token : Token} (h : Token.ofChar? c = some token) :
    token.Flat := by
  unfold Token.ofChar? at h
  split at h
  all_goals first | (obtain rfl := Option.some.inj h; trivial) | cases h

/-- All tokens read so far are flat. -/
def Flat (lexer : Lexer) : Prop := ∀ token ∈ lexer.tokens, token.Flat

/-- Whatever a character begins between the tokens, those read so far stay. -/
theorem flat_begin {before : List Token} (h : ∀ token ∈ before, token.Flat) (c : Char) :
    (begin before c).Flat := by
  unfold begin
  split
  · exact h
  split
  · exact h
  split
  · rename_i htoken
    exact List.forall_mem_cons.mpr ⟨flat_ofChar? htoken, h⟩
  · exact h

/-- A unit is taken into a text, and the tokens stay. -/
theorem flat_takeUnit {before : List Token} (h : ∀ token ∈ before, token.Flat) {read : List Char}
    {high : Option Nat} {unit : Nat} {next : Lexer}
    (hnext : takeUnit before read high unit = some next) : next.Flat := by
  unfold takeUnit at hnext
  split at hnext
  · split at hnext
    · exact Option.some.inj hnext ▸ h
    · cases hnext
  · split at hnext
    · exact Option.some.inj hnext ▸ h
    split at hnext
    · cases hnext
    · exact Option.some.inj hnext ▸ h

/-- No character brings in a token with parts. -/
theorem flat_step {lexer next : Lexer} (h : lexer.Flat) {c : Char}
    (hnext : lexer.step c = some next) : next.Flat := by
  obtain ⟨before, state⟩ := lexer
  cases state with
  | between => exact Option.some.inj hnext ▸ flat_begin h c
  | inAtom read =>
    rw [step_inAtom] at hnext
    split at hnext
    · obtain ⟨token, htoken, rfl⟩ := Option.map_eq_some_iff.mp hnext
      exact flat_begin (List.forall_mem_cons.mpr ⟨flat_ofAtom? htoken, h⟩) c
    · exact Option.some.inj hnext ▸ h
  | inText read =>
    rw [step_inText] at hnext
    split at hnext
    · exact Option.some.inj hnext ▸ List.forall_mem_cons.mpr ⟨trivial, h⟩
    split at hnext
    · exact Option.some.inj hnext ▸ h
    split at hnext
    · cases hnext
    · exact Option.some.inj hnext ▸ h
  | inEscape read =>
    unfold step at hnext
    dsimp only at hnext
    split at hnext
    · exact Option.some.inj hnext ▸ h
    · obtain ⟨e, -, rfl⟩ := Option.map_eq_some_iff.mp hnext
      exact h
  -- inside an escape nothing is completed, so the tokens are those before
  | inUnit read high count value =>
    unfold step at hnext
    dsimp only at hnext
    split at hnext
    · cases hnext
    split at hnext
    · exact Option.some.inj hnext ▸ h
    · exact flat_takeUnit h hnext
  | needLow read high =>
    unfold step at hnext
    dsimp only at hnext
    split at hnext
    · exact Option.some.inj hnext ▸ h
    · cases hnext
  | needLowEscape read high =>
    unfold step at hnext
    dsimp only at hnext
    split at hnext
    · exact Option.some.inj hnext ▸ h
    · cases hnext

/-- The tokens of any text are flat. -/
theorem flat_of_tokens? {cs : List Char} {read : List Token} (h : tokens? cs = some read) :
    ∀ token ∈ read, token.Flat := by
  obtain ⟨lexer, hlexer, hfinish⟩ := Option.bind_eq_some_iff.mp h
  have hstart : start.Flat := List.forall_mem_nil _
  have hflat : lexer.Flat :=
    foldlM_keeps Flat (fun _ _ _ _ hs hnext => flat_step hs hnext) hstart hlexer
  obtain ⟨before, state⟩ := lexer
  cases state with
  | between =>
    obtain rfl := Option.some.inj hfinish
    exact fun token htoken => hflat token (List.mem_reverse.mp htoken)
  | inAtom read =>
    obtain ⟨token, htoken, rfl⟩ := Option.map_eq_some_iff.mp hfinish
    intro other hother
    rcases List.mem_cons.mp (List.mem_reverse.mp hother) with rfl | hmem
    · exact flat_ofAtom? htoken
    · exact hflat other hmem
  | _ => cases hfinish

end Lexer

/-- What is open has values that fit into this room, and repeats no key. -/
def Open.Fits (room : Nat) : Open → Prop
  | .array items => ∀ item ∈ items, item.Fits room
  | .object fields _ => (Entries.keys fields).Nodup ∧ ∀ field ∈ fields, field.2.Fits room

namespace Reading

/-- Each of the open arrays and objects has values that fit inside those around it. -/
def StackFits : List Open → Prop
  | [] => True
  | top :: stack =>
    stack.length < maxOpen ∧ top.Fits (maxOpen - (stack.length + 1)) ∧ StackFits stack

/-- The same for the values that are complete or whose fields have been read. -/
def Sound : Reading → Prop
  | .needValue stack => StackFits stack
  | .needFirstItem stack => stack.length < maxOpen ∧ StackFits stack
  | .needFirstKey stack => stack.length < maxOpen ∧ StackFits stack
  | .needKey stack fields => StackFits (.object fields "" :: stack)
  | .needColon stack fields key => StackFits (.object fields key :: stack)
  | .complete stack value => StackFits stack ∧ value.Fits (maxOpen - stack.length)

variable {stack : List Open} {next : Reading} {token : Token}

/-- Where a value is due, the token that begins it keeps the reading sound. -/
theorem sound_stepValue (h : StackFits stack) (htoken : token.Flat)
    (hnext : stepValue stack token = some next) : next.Sound := by
  cases token with
  | openArray =>
    rw [stepValue] at hnext
    split at hnext
    · exact Option.some.inj hnext ▸ ⟨by assumption, h⟩
    · cases hnext
  | openObject =>
    rw [stepValue] at hnext
    split at hnext
    · exact Option.some.inj hnext ▸ ⟨by assumption, h⟩
    · cases hnext
  | text s => exact Option.some.inj hnext ▸ ⟨h, fits_str s⟩
  | atom value => exact Option.some.inj hnext ▸ ⟨h, Fits.mono htoken (Nat.zero_le _)⟩
  | _ => cases hnext

/-- A field that is set fits if its value does. -/
theorem fits_object_insert {room : Nat} {fields : List (String × Json)} {key other : String}
    {value : Json} (h : (Open.object fields key).Fits room) (hvalue : value.Fits room) :
    (Open.object (Entries.insert key value fields) other).Fits room := by
  refine ⟨Entries.nodup_keys_insert key value h.1, fun field hfield => ?_⟩
  rcases Entries.mem_insert hfield with rfl | hold
  · exact hvalue
  · exact h.2 field hold

/-- A value that is complete is added to what it stands in, or completes it. -/
theorem sound_stepAfter {value : Json} (h : StackFits stack)
    (hvalue : value.Fits (maxOpen - stack.length))
    (hnext : stepAfter value stack token = some next) : next.Sound := by
  unfold stepAfter at hnext
  split at hnext
  · obtain ⟨hlength, htop, hstack⟩ := h
    exact Option.some.inj hnext ▸ ⟨hlength, List.forall_mem_cons.mpr ⟨hvalue, htop⟩, hstack⟩
  · rename_i items stack
    obtain ⟨hlength, htop, hstack⟩ := h
    refine Option.some.inj hnext ▸ ⟨hstack, ?_⟩
    have hroom : maxOpen - stack.length = maxOpen - (stack.length + 1) + 1 := by omega
    rw [hroom, fits_arr_iff]
    exact fun item hitem =>
      List.forall_mem_cons.mpr ⟨hvalue, htop⟩ item (List.mem_reverse.mp hitem)
  · obtain ⟨hlength, htop, hstack⟩ := h
    exact Option.some.inj hnext ▸ ⟨hlength, fits_object_insert htop hvalue, hstack⟩
  · rename_i fields key stack
    obtain ⟨hlength, htop, hstack⟩ := h
    refine Option.some.inj hnext ▸ ⟨hstack, ?_⟩
    have hroom : maxOpen - stack.length = maxOpen - (stack.length + 1) + 1 := by omega
    rw [hroom, fits_obj_iff]
    exact (fits_object_insert htop hvalue : (Open.object _ key).Fits _)
  · cases hnext

/-- Every token keeps the reading sound. -/
theorem sound_step {reading : Reading} (h : reading.Sound) (htoken : token.Flat)
    (hnext : reading.step token = some next) : next.Sound := by
  cases reading with
  | needValue stack => exact sound_stepValue h htoken hnext
  | needFirstItem stack =>
    obtain ⟨hlength, hstack⟩ := h
    rw [step] at hnext
    split at hnext
    · have hempty : Fits 1 (.arr []) := (fits_arr_iff []).mpr (List.forall_mem_nil _)
      exact Option.some.inj hnext ▸ ⟨hstack, hempty.mono (by omega)⟩
    · have hopen : StackFits (.array [] :: stack) := ⟨hlength, List.forall_mem_nil _, hstack⟩
      exact sound_stepValue hopen htoken hnext
  | needFirstKey stack =>
    obtain ⟨hlength, hstack⟩ := h
    unfold step at hnext
    dsimp only at hnext
    split at hnext
    · have hempty : Fits 1 (.obj []) :=
        (fits_obj_iff []).mpr ⟨List.nodup_nil, List.forall_mem_nil _⟩
      exact Option.some.inj hnext ▸ ⟨hstack, hempty.mono (by omega)⟩
    · exact Option.some.inj hnext ▸
        ⟨hlength, ⟨List.nodup_nil, List.forall_mem_nil _⟩, hstack⟩
    · cases hnext
  | needKey stack fields =>
    unfold step at hnext
    dsimp only at hnext
    split at hnext
    · exact Option.some.inj hnext ▸ h
    · cases hnext
  | needColon stack fields key =>
    unfold step at hnext
    dsimp only at hnext
    split at hnext
    · exact Option.some.inj hnext ▸ h
    · cases hnext
  | complete stack value => exact sound_stepAfter h.1 h.2 hnext

end Reading

/-- **Values that are read fit**: no object repeats a key, and they are nested at most as deep as
texts may be. -/
theorem fits_of_ofString? {text : String} {value : Json} (h : ofString? text = some value) :
    value.Fits maxOpen := by
  obtain ⟨tokens, htokens, h⟩ := Option.bind_eq_some_iff.mp h
  obtain ⟨reading, hreading, hfinish⟩ := Option.bind_eq_some_iff.mp h
  have hflat := Lexer.flat_of_tokens? htokens
  have hstart : (Reading.needValue []).Sound := trivial
  have hsound : reading.Sound := foldlM_keeps Reading.Sound
    (fun token htoken _ _ hs => Reading.sound_step hs (hflat token htoken)) hstart hreading
  unfold Reading.finish? at hfinish
  split at hfinish
  · exact Option.some.inj hfinish ▸ hsound.2
  · cases hfinish

end Json

end ScriptStore
