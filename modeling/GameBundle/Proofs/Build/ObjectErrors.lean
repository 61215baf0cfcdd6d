import GameBundle.Proofs.Build.PlacedObjects
import GameBundle.Proofs.Build.Refusals

set_option autoImplicit false

/-! # What objects fail with

Three errors say that a rule for the objects of a map is broken. Placing an outline never fails with
one of them, and placing an entity only if the map has a player already. For this everything that is
done on the way must not fail with one either: for each function that goes into a record there is a
lemma under its name. -/

namespace GameBundle

/-! ## Rules and other reasons -/

/-- A rule for the objects of a map is broken. -/
def BuildError.BreaksRule : BuildError → Prop
  | .rotatedObject _ _ | .tooManyEntities _ _ _ | .multiplePlayers _ _ _ => True
  | _ => False

def Failure.BreaksRule : Failure → Prop
  | .error e => e.BreaksRule
  | .overrun => False

theorem Failure.breaksRule_sparesRecords : SparesRecords Failure.BreaksRule :=
  ⟨id, fun _ _ _ => id⟩

/-! ## Parts of records -/

theorem Properties.merge_avoids (context : String) (target : Properties)
    (properties : List Tiled.Property) :
    Avoids BuildError.BreaksRule (Properties.merge context target properties) := by
  apply Avoids.foldlM
  intro target property
  split
  · exact .ok _
  · exact .error id

theorem resolveTile_avoids (tilesets : List (UInt32 × Tileset)) (gid : UInt32) (context : String) :
    Avoids BuildError.BreaksRule (resolveTile tilesets gid context) := by
  unfold resolveTile
  dsimp only
  split
  · exact .ok _
  · exact .error id

theorem composeEntities_avoids (types : Ordered EntityType) (tilesets : List (UInt32 × Tileset))
    (map : String) (objects : List Tiled.Object) :
    Avoids BuildError.BreaksRule (composeEntities types tilesets map objects) := by
  refine .bind (.mapM ?_ _) fun _ => .ok _
  rintro ⟨object, place⟩
  dsimp only
  split
  · exact .ok _
  · refine .bind (resolveTile_avoids _ _ _) fun tile => .bind ?_ fun e => .ok _
    exact .bind (Properties.merge_avoids _ _ _) fun own => .ok _

theorem coordinate_avoids (context : String) (value : Float) :
    Avoids Failure.BreaksRule (coordinate context value) := by
  unfold coordinate
  dsimp only
  split
  · exact .ok _
  · exact .error id

theorem Outline.encode_avoids (name : String) (o : Outline) :
    Avoids Failure.BreaksRule (o.encode name) := by
  have hpixel : ∀ point, Avoids Failure.BreaksRule (Outline.pixel name point) := fun point =>
    .bind (coordinate_avoids _ _) fun x => .bind (coordinate_avoids _ _) fun y => .ok _
  unfold Outline.encode
  apply Avoids.errorIf id
  exact .bind (.mapM hpixel _) fun pixels => Failure.breaksRule_sparesRecords.encode _ _

theorem Outline.encodeObject_avoids (o : Tiled.Object) :
    Avoids Failure.BreaksRule (Outline.encodeObject o) := by
  refine .bind (Avoids.lift (Properties.merge_avoids _ _ _)) fun properties => ?_
  apply Avoids.errorIf id
  apply Avoids.errorIf id
  exact Outline.encode_avoids _ _

theorem Entity.look_avoids (e : Entity) (types : Ordered EntityType) :
    Avoids BuildError.BreaksRule (e.look types) := by
  unfold Entity.look
  split
  · exact .ok _
  · exact .ok _
  · split
    · exact .ok _
    · exact .error id

theorem Entity.byte_avoids (e : Entity) (keys : List String) :
    Avoids BuildError.BreaksRule (e.byte keys) := by
  unfold Entity.byte
  split
  · exact .ok _
  · dsimp only
    split
    · exact .ok _
    · exact .error id

theorem Bytes.patchWord_avoids (bytes : Bytes) (start : Nat) (value : UInt16) :
    Avoids Failure.BreaksRule (bytes.patchWord start value) := by
  unfold Bytes.patchWord
  split
  · exact .ok _
  · exact .error id

theorem Entity.encode_avoids (e : Entity) (types : Ordered EntityType) (path : Option UInt16) :
    Avoids Failure.BreaksRule (e.encode types path) := by
  have hbyte : ∀ keys, Avoids Failure.BreaksRule (liftM (e.byte keys) : Except Failure UInt8) :=
    fun keys => .lift (e.byte_avoids keys)
  refine .bind (coordinate_avoids _ _) fun x => .bind (coordinate_avoids _ _) fun y => ?_
  refine .bind (.lift (e.look_avoids types)) fun look => ?_
  refine .bind (hbyte _) fun animation => .bind (hbyte _) fun frame => ?_
  refine .bind (hbyte _) fun stateA => .bind (hbyte _) fun stateB => ?_
  refine .bind (hbyte _) fun stateC => .bind (hbyte _) fun stateD => ?_
  refine .bind (Failure.breaksRule_sparesRecords.encode _ _) fun bytes => ?_
  cases path with
  | none => exact .ok _
  | some path => exact Bytes.patchWord_avoids _ _ _

theorem pathOf_avoids (map : MapContext) (e : Entity) :
    Avoids BuildError.BreaksRule (pathOf map e) := by
  unfold pathOf
  split
  · exact .ok _
  · split
    · exact .ok _
    · exact .error id

/-! ## Objects -/

variable {s t : MapState} {f : Failure}

theorem placeOutlines_fails {objects : List Tiled.Object} (h : Fails (placeOutlines objects) s f t) :
    ¬ f.BreaksRule := by
  obtain ⟨object, -, u, hobject⟩ := exists_of_fails_mapM h
  dsimp only at hobject
  split at hobject
  · exact (fails_pure.1 hobject).elim
  · simp only [addOutline, fails_bind, fails_onProject, fails_except, fails_onTables, fails_get,
      fails_changeMap, fails_pure, and_false, exists_false, or_false] at hobject
    obtain ⟨_, ⟨hencode, -⟩ | ⟨_, _, -, _, hpush, -⟩, -⟩ := hobject
    · exact Outline.encodeObject_avoids object f hencode
    · exact (Failure.breaksRule_sparesRecords.push _ _ _).spares hpush

/-- Adding an entity breaks a rule only if there is a player already. -/
theorem placeEntity_fails {earlier : List (UInt16 × Entity)} {e : Entity}
    (h : Fails (placeEntity earlier e) s f t) (hf : f.BreaksRule) :
    e.isPlayer = true ∧ ∃ player, s.map.player = some player ∧
      f = .error (.multiplePlayers s.map.name
        ((earlier[player.toNat]?.map fun p => p.2.label).getD "") e.label) := by
  simp only [placeEntity, addEntity, fails_bind, fails_get, fails_except, fails_onProject,
    fails_onTables, fails_changeMap, yields_get, false_or] at h
  obtain ⟨_, _, ⟨rfl, rfl⟩, ⟨hpath, -⟩ | ⟨_, _, -, ⟨_, ⟨_, _, -, ⟨hencode, -⟩ |
    ⟨_, _, -, _, hpush, -⟩⟩, -⟩ | ⟨_, _, -, _, _, -, h⟩⟩⟩ := h
  · exact absurd hf (Avoids.lift (pathOf_avoids _ e) f hpath)
  · exact absurd hf (Entity.encode_avoids e _ _ f hencode)
  · exact absurd hf ((Failure.breaksRule_sparesRecords.push _ _ _).spares hpush)
  · split at h
    · next hplayer =>
      split at h
      · next player hsome =>
        simp only [fails_bind, fails_reject, yields_reject, false_and, exists_false, or_false] at h
        exact ⟨hplayer, player, hsome, h.1⟩
      · simp only [fails_bind, fails_changeMap, fails_pure, and_false, exists_false, or_false] at h
    · exact (fails_pure.1 h).elim

end GameBundle
