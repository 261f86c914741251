import AutoDJ.Config.File
import AutoDJ.Proofs.Files.Disk
import AutoDJ.Proofs.Json.Codec

namespace AutoDJ

open Json (Codec Field)

theorem Tag.lawful_codec : Tag.codec.Lawful :=
  Codec.lawful_choice fun tag => by cases tag <;> rfl

theorem JukeboxMode.lawful_codec : JukeboxMode.codec.Lawful :=
  Codec.lawful_choice fun mode => by cases mode <;> rfl

theorem Source.lawful_codec : Source.codec.Lawful where
  wellFormed source := by
    cases source with
    | database => exact .string _
    | playlist name => exact .object (by simp) (by simpa using .string name)
  read?_write source := by cases source <;> rfl

theorem JukeboxSettings.lawful_codec : JukeboxSettings.codec.Lawful :=
  Codec.lawful_record (by decide)
    (.cons (Field.copies_of JukeboxMode.lawful_codec) <|
      .cons (Field.copies_of Codec.lawful_uint64) <|
      .cons (Field.copies_of Codec.lawful_uint32) <|
      .cons (Field.copies_of Codec.lawful_bool) <|
      .cons (Field.copies_of (Codec.lawful_optional Tag.lawful_codec nofun)) <|
      .cons (Field.copies_of Source.lawful_codec) <|
      .cons (Field.copies_of Codec.lawful_uint32) <|
      .cons (Field.copies_of Codec.lawful_bool) .nil)
    fun _ => rfl

theorem PartitionConfig.lawful_codec : PartitionConfig.codec.Lawful :=
  Codec.lawful_record (by decide)
    (.cons (Field.copies_of Codec.lawful_text) <|
      .cons (Field.copies_of (Codec.lawful_optional Codec.lawful_text nofun)) <|
      .cons (Field.copies_of (Codec.lawful_optional Codec.lawful_uint16 nofun)) <|
      .cons (Field.copies_of JukeboxSettings.lawful_codec) .nil)
    fun _ => rfl

namespace Config

theorem lawful_codec : codec.Lawful :=
  Codec.lawful_record (by decide)
    (.cons (Field.copies_of Codec.lawful_uint64) <|
      .cons (Field.copies_of Codec.lawful_uint64) <|
      .cons (Field.copies_of Codec.lawful_uint64) <|
      .cons (Field.copies_of Codec.lawful_bool) <|
      .cons (Field.copies_of Codec.lawful_bool) <|
      .cons (Field.copies_of (Codec.lawful_optional Codec.lawful_text nofun)) <|
      .cons (Field.copies_of (Codec.lawful_optional Codec.lawful_text nofun)) <|
      .cons (Field.copies_of Codec.lawful_uint64) <|
      .cons (Field.copies_of Codec.lawful_uint64) <|
      .cons (Field.copies_of Codec.lawful_bool) <|
      .cons (Field.copies_of (Codec.lawful_list PartitionConfig.lawful_codec)) .nil)
    fun _ => rfl

theorem ofText_toText (config : Config) : ofText config.toText = .ok config := by
  unfold ofText toText
  rw [Json.Value.read?_pretty (lawful_codec.wellFormed config), Option.bind_some,
    lawful_codec.read?_write]

theorem load_save (config : Config) (path : String) (disk : Disk)
    : ofText config.toText = .ok config
      ∧ (config.save path).Ends disk (fun _ after => load after path = .ok config)
        (fun e after =>
          Disk.makeParent path disk = .error e after
            ∨ Disk.makeParent path disk = .ok () after
              ∧ ∃ obstacle, after.obstacle? path = some obstacle ∧ e = obstacle.toError) := by
  refine ⟨config.ofText_toText, ?_⟩
  unfold save
  rw [Play.ends_bind]
  apply (Play.ends_self (Disk.makeParent path) disk).mono
  . intro _ prepared hparent
    apply (Disk.writeText_ends path config.toText prepared).mono
    . intro _ after htext
      unfold load
      rw [Disk.readText?_of_textAt htext]
      exact config.ofText_toText
    . rintro e after ⟨rfl, hobstacle⟩
      exact .inr ⟨hparent, hobstacle⟩
  . intro e after hparent
    exact .inl hparent

-- on an empty disk nothing stands in the way
example (config : Config) : ∃ after, config.save "etc/config.json" {} = .ok () after :=
  ⟨_, rfl⟩

end Config

end AutoDJ
