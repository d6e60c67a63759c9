/-
Every banner can be configured.

The responder of the XDP tier answers with the bytes of
`afxdp-udp-banner`, which the configuration writes with escapes. Written
byte by byte as `\xNN`, a banner is one word of the configuration whatever
its bytes are, and the parser gives the bytes back.
-/
import Blackwall.Config.Proofs.Grammar
import Blackwall.Config.Proofs.Layout

namespace Blackwall.Config

open Base

-- ================================================================ escapes

/-- A hexadecimal digit. -/
def hexChar (n : Fin 16) : Char :=
  "0123456789abcdef".toList.get (n.cast (by decide))

theorem hexDigit_hexChar : ∀ n, hexDigit (hexChar n) = some n.val := by
  decide

/-- A byte as `\xNN`. -/
def escape (b : Byte) : Text :=
  ['\\', 'x', hexChar ⟨b.toNat / 16, by omega⟩,
    hexChar ⟨b.toNat % 16, by omega⟩]

/-- A banner byte by byte. -/
def escaped (banner : List Byte) : Text := banner.flatMap escape

theorem decode_escape (b : Byte) (rest : Text) :
    decodeBannerEscapes (escape b ++ rest)
      = b :: decodeBannerEscapes rest := by
  have hb : BitVec.ofNat 8 (b.toNat / 16 * 16 + b.toNat % 16) = b := by
    rw [Nat.div_add_mod', BitVec.ofNat_toNat, BitVec.setWidth_eq]
  simp [escape, decodeBannerEscapes, hexDigit_hexChar, hb]

theorem decode_escaped (banner : List Byte) :
    decodeBannerEscapes (escaped banner) = banner := by
  induction banner with
  | nil => simp [escaped, decodeBannerEscapes]
  | cons b banner ih =>
      rw [escaped, List.flatMap_cons, decode_escape]
      exact congrArg (b :: ·) ih

-- =============================================================== one word

theorem hexChar_solid : ∀ n, isWhitespace (hexChar n) = false
    ∧ hexChar n ≠ '\\' := by
  decide

theorem escape_solid (b : Byte) :
    ∀ c ∈ escape b, isWhitespace c = false := by
  intro c hc
  simp only [escape, List.mem_cons, List.not_mem_nil, or_false] at hc
  rcases hc with rfl | rfl | rfl | rfl
  · decide
  · decide
  · exact (hexChar_solid _).1
  · exact (hexChar_solid _).1

/-- A key and an escaped banner. -/
def bannerWord (key : Text) (banner : List Byte) : Text :=
  key ++ '=' :: escaped banner

theorem bannerWord_last (key : Text) (banner : List Byte) :
    (bannerWord key banner).getLast? ≠ some '\\' := by
  rw [bannerWord, List.getLast?_append_cons]
  induction banner using List.reverseRecOn with
  | nil => decide
  | append_singleton banner b =>
      rw [escaped, List.flatMap_append, List.flatMap_singleton,
        ← List.cons_append, List.getLast?_append]
      simp [escape, (hexChar_solid _).2]

theorem bannerWord_word {key : Text} (hkey : key ≠ [])
    (hsolid : ∀ c ∈ key, isWhitespace c = false)
    (hstart : key.head? ≠ some '#') (banner : List Byte) :
    Word (bannerWord key banner) := by
  refine ⟨by simp [bannerWord, hkey], fun c hc => ?_, ?_,
    bannerWord_last key banner⟩
  · rcases List.mem_append.mp hc with hc | hc
    · exact hsolid c hc
    rcases List.mem_cons.mp hc with rfl | hc
    · decide
    obtain ⟨b, -, hc⟩ := List.mem_flatMap.mp hc
    exact escape_solid b c hc
  · rwa [bannerWord, List.head?_append_of_ne_nil _ hkey]

-- ================================================================ the text

/-- A configuration with nothing but an interface and a banner. -/
def bannerText (banner : List Byte) : Text :=
  "interface wan eth0".toList ++ '\n' :: ("xdp".toList ++ [' ']
    ++ bannerWord "afxdp-udp-banner".toList banner)

def bannerLines (banner : List Byte) : List Line :=
  [⟨1, ["interface".toList, "wan".toList, "eth0".toList]⟩,
    ⟨2, ["xdp".toList, bannerWord "afxdp-udp-banner".toList banner]⟩]

theorem word_of_decide {w : Text} (h : w ≠ []
    ∧ (w.all (!isWhitespace ·)) = true ∧ w.head? ≠ some '#'
    ∧ w.getLast? ≠ some '\\') : Word w :=
  ⟨h.1, solid_of_all h.2.1, h.2.2.1, h.2.2.2⟩

theorem bannerText_lex (banner : List Byte) :
    lex (bannerText banner) = bannerLines banner := by
  have hrow : Row ["interface".toList, "wan".toList, "eth0".toList]
      "interface wan eth0".toList := by
    rw [show "interface wan eth0".toList = "interface".toList ++ [' ']
      ++ ("wan".toList ++ [' '] ++ "eth0".toList) by decide]
    exact .cons (word_of_decide (by decide)) gap_space (by decide)
      (.cons (word_of_decide (by decide)) gap_space (by decide)
        (.last (word_of_decide (by decide))))
  have hbanner : Row ["xdp".toList,
      bannerWord "afxdp-udp-banner".toList banner]
      ("xdp".toList ++ [' ']
        ++ bannerWord "afxdp-udp-banner".toList banner) :=
    .cons (word_of_decide (by decide)) gap_space (by decide)
      (.last (bannerWord_word (by decide)
        (solid_of_all (by decide)) (by decide) banner))
  have hlayout : Layout 1 (bannerLines banner) (bannerText banner) := by
    have hend : Layout 2 _ ([] ++ ("xdp".toList ++ [' ']
        ++ bannerWord "afxdp-udp-banner".toList banner) ++ [] ++ []) :=
      .line gap_nil (.row hbanner) (.space gap_nil) .eof .done
    rw [List.nil_append, List.append_nil, List.append_nil] at hend
    have h := Layout.line (k := 1) gap_nil (.row hrow) (.space gap_nil)
      (.newline (e := ['\n']) (by decide) _) hend
    rwa [List.nil_append, List.append_nil] at h
  exact lex_of_feed (feed_layout hlayout rfl [])

theorem xdpArg_banner (line : Line) (banner : List Byte) :
    xdpArg line .default (bannerWord "afxdp-udp-banner".toList banner)
      = .ok { XdpConfig.default with afxdpUdpBanner := some banner } := by
  have hkey : keyValue line "xdp"
      (bannerWord "afxdp-udp-banner".toList banner)
      = .ok ("afxdp-udp-banner".toList, escaped banner) :=
    congrArg (orBad line "xdp" _) (splitOnce_sep (by decide) _)
  refine bind_ok.mpr ⟨_, hkey, ?_⟩
  conv_rhs => rw [← decode_escaped banner]
  rfl

/-- Every banner has a configuration that sets it. -/
theorem banner_configurable (m : Build) (std : FromStr)
    (banner : List Byte) :
    ∃ p x, parseStr m std (bannerText banner) = .ok p ∧ p.xdp = some x
      ∧ x.afxdpUdpBanner = some banner := by
  let x := { XdpConfig.default with afxdpUdpBanner := some banner }
  let d : Draft := { Draft.start with interface := some "eth0" }
  have hline : parseLine m std
      ⟨2, ["xdp".toList, bannerWord "afxdp-udp-banner".toList banner]⟩ [] d
      = .ok ({ d with xdp := some x }, 0) := by
    refine bind_ok.mpr ⟨x, ?_, rfl⟩
    exact bind_ok.mpr ⟨x, xdpArg_banner _ banner, rfl⟩
  refine ⟨{ d with xdp := some x, interface := "eth0" }, x, ?_, rfl, rfl⟩
  rw [parseStr, bannerText_lex]
  refine bind_ok.mpr ⟨{ d with xdp := some x }, ?_, rfl⟩
  refine bind_ok.mpr ⟨(d, 0), rfl, ?_⟩
  exact bind_ok.mpr ⟨_, hline, rfl⟩

end Blackwall.Config
