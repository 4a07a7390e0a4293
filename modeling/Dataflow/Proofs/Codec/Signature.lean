import Dataflow.Proofs.Flat.Rows
import Dataflow.Proofs.MemberChain.Rows
import Dataflow.Proofs.MethodToken.Rows

/-!
# What a signature tells of an endpoint

A signature is made of the parts of a name with `.` and `#` between them, and nothing is escaped. So
two endpoints share a signature when a part holds what stands between two parts, and Python leaves
the package out.

* `Separated ecosystem identity`: no part of the name holds the character that ends it.
* `Agree ecosystem a b`: two endpoints have the parts in common that the ecosystem signs.
* `Identifies ecosystem`: endpoints that are read with one signature have one name.

Results:
* `signature_eq_iff_agree`: endpoints whose parts are separated share a signature iff they agree.
* `identifies_nowhere`: in no ecosystem does the signature alone identify an endpoint.
-/

namespace Dataflow

/-! ## Type and method -/

theorem toList_signed (front back : String) :
    (front ++ "#" ++ back).toList = front.toList ++ '#' :: back.toList := by
  simp

/-- A type and a method are told apart by the first `#`, if the type has none. -/
theorem signed_inj {front front' back back' : String} (hf : '#' ∉ front.toList)
    (hf' : '#' ∉ front'.toList) :
    front ++ "#" ++ back = front' ++ "#" ++ back' ↔ front = front' ∧ back = back' := by
  constructor
  · intro h
    have hlist := congrArg String.toList h
    rw [toList_signed, toList_signed] at hlist
    obtain ⟨hfront, hback⟩ := Text.append_inj_of_first hf hf' (by simp) (by simp) hlist
    exact ⟨String.toList_inj.mp hfront, String.toList_inj.mp (List.cons.inj hback).2⟩
  · rintro ⟨rfl, rfl⟩
    rfl

/-! ## Flat rows -/

namespace Flat

/-- No part of the name of an endpoint holds the character that ends it in the signature. -/
structure Separated (identity : Identity) : Prop where
  /-- A dot ends the package, and the type has none. -/
  package : '.' ∉ identity.typeName.toList
  /-- The first `#` ends the type. -/
  typeName : '#' ∉ identity.package.toList ∧ '#' ∉ identity.typeName.toList
  /-- The first parenthesis ends the method. -/
  method : '(' ∉ identity.method.toList
  /-- Parameters stand in parentheses. -/
  parameters : ∀ c ∈ identity.parameters.toList.head?, c = '('

/-- **Separated parts are told apart.** -/
theorem signature_inj {a b : Identity} (ha : Separated a) (hb : Separated b) :
    signature a = signature b ↔
      a.package = b.package ∧ a.typeName = b.typeName ∧ a.method = b.method ∧
        a.parameters = b.parameters := by
  have hqualified : ∀ {identity : Identity}, Separated identity →
      '#' ∉ (identity.package ++ "." ++ identity.typeName).toList := by
    intro identity h
    simpa using h.typeName
  have hsignature : ∀ identity : Identity, signature identity =
      (identity.package ++ "." ++ identity.typeName) ++ "#" ++
        (identity.method ++ identity.parameters) := by
    intro identity
    exact String.append_assoc
  rw [hsignature, hsignature, signed_inj (hqualified ha) (hqualified hb)]
  constructor
  · rintro ⟨hfront, hback⟩
    have hfront' : a.package.toList ++ '.' :: a.typeName.toList =
        b.package.toList ++ '.' :: b.typeName.toList := by
      simpa using congrArg String.toList hfront
    have hback' : a.method.toList ++ a.parameters.toList =
        b.method.toList ++ b.parameters.toList := by
      simpa using congrArg String.toList hback
    obtain ⟨hpackage, htype⟩ := Text.append_inj_of_last ha.package hb.package hfront'
    obtain ⟨hmethod, hparameters⟩ :=
      Text.append_inj_of_first ha.method hb.method ha.parameters hb.parameters hback'
    exact ⟨String.toList_inj.mp hpackage, String.toList_inj.mp htype,
      String.toList_inj.mp hmethod, String.toList_inj.mp hparameters⟩
  · rintro ⟨hpackage, htype, hmethod, hparameters⟩
    rw [hpackage, htype, hmethod, hparameters]
    exact ⟨rfl, rfl⟩

theorem signature_of_decodeChecked {ecosystem : Ecosystem}
    (hflat : ecosystem = .java ∨ ecosystem = .csharp) {variant : Variant} {row : Row}
    {modeled : ModeledMethod} (h : ecosystem.decodeChecked variant row = .ok modeled) :
    modeled.signature = signature modeled.identity := by
  obtain ⟨hfits, hdecode⟩ := Ecosystem.decodeChecked_eq_ok_iff.mp h
  obtain ⟨subtypes, ext, provenance, identity, model, rfl, hrow⟩ := (fits_iff hflat).mp hfits
  rw [decode_rowOf? hflat hrow] at hdecode
  obtain rfl := Except.ok.inj hdecode
  rfl

end Flat

/-! ## Rows with a chain of members -/

namespace MemberChain

/-- What is read from a row has no parameters. -/
theorem identity_of_decodeChecked {variant : Variant} {row : Row} {modeled : ModeledMethod}
    (h : Ecosystem.python.decodeChecked variant row = .ok modeled) :
    modeled.signature = signature modeled.identity ∧ modeled.identity.parameters = "" := by
  obtain ⟨-, -, column, path, -, hidentity, -⟩ := decodeChecked_eq_ok_iff.mp h
  unfold ModeledMethod.signature
  rw [← hidentity]
  generalize parse column path = parsed
  exact ⟨rfl, rfl⟩

end MemberChain

/-! ## Rows with a method token -/

namespace MethodToken

/-- What is read from a row has neither a package nor parameters. -/
theorem identity_of_decodeChecked {variant : Variant} {row : Row} {modeled : ModeledMethod}
    (h : Ecosystem.ruby.decodeChecked variant row = .ok modeled) :
    modeled.signature = signature modeled.identity ∧ modeled.identity.package = "" ∧
      modeled.identity.parameters = "" := by
  obtain ⟨hfits, hdecode⟩ := Ecosystem.decodeChecked_eq_ok_iff.mp h
  obtain ⟨column, path, model, rfl, hrow⟩ := fits_iff.mp hfits
  rw [decode_rowOf? hrow] at hdecode
  obtain rfl := Except.ok.inj hdecode
  exact ⟨rfl, rfl, rfl⟩

end MethodToken

/-! ## Signatures of an ecosystem -/

namespace Ecosystem

/-- No part of the name of an endpoint holds the character that ends it in the signature. -/
def Separated : Ecosystem → Identity → Prop
  | java, identity | csharp, identity => Flat.Separated identity
  | python, identity | ruby, identity => '#' ∉ identity.typeName.toList

/-- Two endpoints have the parts of their names in common that the ecosystem signs. Python does not
sign the package. -/
structure Agree (ecosystem : Ecosystem) (a b : Identity) : Prop where
  package : ecosystem ≠ .python → a.package = b.package
  typeName : a.typeName = b.typeName
  method : a.method = b.method
  parameters : a.parameters = b.parameters

/-- **What a signature tells.** Endpoints that were read and whose parts are separated share a
signature iff they agree: it tells all of the name but the package of a Python endpoint. -/
theorem signature_eq_iff_agree {ecosystem : Ecosystem} {variant variant' : Variant}
    {row row' : Row} {a b : ModeledMethod} (ha : ecosystem.decodeChecked variant row = .ok a)
    (hb : ecosystem.decodeChecked variant' row' = .ok b)
    (hsa : ecosystem.Separated a.identity) (hsb : ecosystem.Separated b.identity) :
    a.signature = b.signature ↔ ecosystem.Agree a.identity b.identity := by
  have hflat : ecosystem = .java ∨ ecosystem = .csharp → Flat.Separated a.identity →
      Flat.Separated b.identity →
      (a.signature = b.signature ↔ ecosystem.Agree a.identity b.identity) := by
    intro hflat hsa hsb
    rw [Flat.signature_of_decodeChecked hflat ha, Flat.signature_of_decodeChecked hflat hb,
      Flat.signature_inj hsa hsb]
    have hsigned : ecosystem ≠ .python := by rcases hflat with rfl | rfl <;> decide
    constructor
    · rintro ⟨hpackage, htype, hmethod, hparameters⟩
      exact ⟨fun _ => hpackage, htype, hmethod, hparameters⟩
    · intro h
      exact ⟨h.package hsigned, h.typeName, h.method, h.parameters⟩
  cases ecosystem with
  | java => exact hflat (Or.inl rfl) hsa hsb
  | csharp => exact hflat (Or.inr rfl) hsa hsb
  | python =>
    obtain ⟨hsigna, hparama⟩ := MemberChain.identity_of_decodeChecked ha
    obtain ⟨hsignb, hparamb⟩ := MemberChain.identity_of_decodeChecked hb
    rw [hsigna, hsignb]
    unfold MemberChain.signature
    rw [signed_inj hsa hsb]
    constructor
    · rintro ⟨htype, hmethod⟩
      exact ⟨fun h => absurd rfl h, htype, hmethod, hparama.trans hparamb.symm⟩
    · intro h
      exact ⟨h.typeName, h.method⟩
  | ruby =>
    obtain ⟨hsigna, hpackagea, hparama⟩ := MethodToken.identity_of_decodeChecked ha
    obtain ⟨hsignb, hpackageb, hparamb⟩ := MethodToken.identity_of_decodeChecked hb
    rw [hsigna, hsignb]
    unfold MethodToken.signature
    rw [signed_inj hsa hsb]
    constructor
    · rintro ⟨htype, hmethod⟩
      exact ⟨fun _ => hpackagea.trans hpackageb.symm, htype, hmethod,
        hparama.trans hparamb.symm⟩
    · intro h
      exact ⟨h.typeName, h.method⟩

/-- Two overloads of a Java method have different signatures. -/
theorem signatures_differ_createQuery :
    let single : ModeledMethod :=
      ⟨⟨"org.sql2o", "Connection", "createQuery", "(String)", .method,
        "org.sql2o.Connection#createQuery(String)"⟩, .neutral "summary" .manual⟩
    let double : ModeledMethod :=
      ⟨⟨"org.sql2o", "Connection", "createQuery", "(String,boolean)", .method,
        "org.sql2o.Connection#createQuery(String,boolean)"⟩, .neutral "summary" .manual⟩
    Ecosystem.java.decodeChecked .neutral
        [.text "org.sql2o", .text "Connection", .text "createQuery", .text "(String)",
          .text "summary", .text "manual"] = .ok single ∧
      Ecosystem.java.decodeChecked .neutral
        [.text "org.sql2o", .text "Connection", .text "createQuery", .text "(String,boolean)",
          .text "summary", .text "manual"] = .ok double ∧
      Ecosystem.java.Separated single.identity ∧ Ecosystem.java.Separated double.identity ∧
      single.signature ≠ double.signature := by
  intro single double
  have hsingle : Ecosystem.java.decodeChecked .neutral
      [.text "org.sql2o", .text "Connection", .text "createQuery", .text "(String)",
        .text "summary", .text "manual"] = .ok single := by decide
  have hdouble : Ecosystem.java.decodeChecked .neutral
      [.text "org.sql2o", .text "Connection", .text "createQuery", .text "(String,boolean)",
        .text "summary", .text "manual"] = .ok double := by decide
  have hopens : "(String)".toList.head? = some '(' ∧
      "(String,boolean)".toList.head? = some '(' := by decide
  have hsa : Ecosystem.java.Separated single.identity :=
    ⟨by decide, by decide, by decide, fun c hc => Option.some.inj (hc.symm.trans hopens.1)⟩
  have hsb : Ecosystem.java.Separated double.identity :=
    ⟨by decide, by decide, by decide, fun c hc => Option.some.inj (hc.symm.trans hopens.2)⟩
  refine ⟨hsingle, hdouble, hsa, hsb, fun hsame => ?_⟩
  have hagree := (signature_eq_iff_agree hsingle hdouble hsa hsb).mp hsame
  exact absurd hagree.parameters (by decide)

/-- Endpoints that are read with one signature have one name. -/
def Identifies (ecosystem : Ecosystem) : Prop :=
  ∀ (variant : Variant) (row row' : Row) (a b : ModeledMethod),
    ecosystem.decodeChecked variant row = .ok a → ecosystem.decodeChecked variant row' = .ok b →
      a.signature = b.signature →
        a.identity.package = b.identity.package ∧ a.identity.typeName = b.identity.typeName ∧
          a.identity.method = b.identity.method ∧
          a.identity.parameters = b.identity.parameters

/-- **No signature identifies** an endpoint by itself: a nested type is taken for one in another
package, a Python package is not signed, and a `#` in the type of a Ruby method moves. -/
theorem identifies_nowhere : ¬ ∃ ecosystem : Ecosystem, ecosystem.Identifies := by
  rintro ⟨ecosystem, h⟩
  have hflat : ecosystem = .java ∨ ecosystem = .csharp → False := by
    intro hflat
    have hsame := h .neutral
      [.text "a", .text "b.C", .text "m", .text "()", .text "summary", .text "manual"]
      [.text "a.b", .text "C", .text "m", .text "()", .text "summary", .text "manual"]
      ⟨⟨"a", "b.C", "m", "()", .method, "a.b.C#m()"⟩, .neutral "summary" .manual⟩
      ⟨⟨"a.b", "C", "m", "()", .method, "a.b.C#m()"⟩, .neutral "summary" .manual⟩
      (by rcases hflat with rfl | rfl <;> decide) (by rcases hflat with rfl | rfl <;> decide) rfl
    exact absurd hsame.1 (by decide)
  cases ecosystem with
  | java => exact hflat (Or.inl rfl)
  | csharp => exact hflat (Or.inr rfl)
  | python =>
    have hsame := h .neutral
      [.text "requests.Session", .text "Member[get]", .text "summary"]
      [.text "httpx.Session", .text "Member[get]", .text "summary"]
      ⟨⟨"requests", "Session", "get", "", .method, "Session#get"⟩, .neutral "summary" .manual⟩
      ⟨⟨"httpx", "Session", "get", "", .method, "Session#get"⟩, .neutral "summary" .manual⟩
      (by decide) (by decide) rfl
    exact absurd hsame.1 (by decide)
  | ruby =>
    have hsame := h .neutral
      [.text "A", .text "Method[b#c]", .text "summary"]
      [.text "A#b", .text "Method[c]", .text "summary"]
      ⟨⟨"", "A", "b#c", "", .method, "A#b#c"⟩, .neutral "summary" .manual⟩
      ⟨⟨"", "A#b", "c", "", .method, "A#b#c"⟩, .neutral "summary" .manual⟩
      (by decide) (by decide) rfl
    exact absurd hsame.2.1 (by decide)

end Ecosystem

end Dataflow
