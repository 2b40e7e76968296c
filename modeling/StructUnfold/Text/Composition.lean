import StructUnfold.Text.Marks

/-!
# Composition

A letter and the marks on it can be written apart or as one character. `compose` brings marks into
the order of their combining classes and joins what can be joined, so that texts that look alike
become equal. It knows the characters that have parts (Unicode, version 17); those that are only
another name of one character are left to whoever maps names to characters.
-/

namespace StructUnfold.Text

/-- Characters that end in one part. -/
structure Joining where
  /-- The part they end in. -/
  second : Nat
  /-- What comes before that part. -/
  firsts : String
  /-- The characters, in the order of what comes before. -/
  wholes : String

/-- The characters that have two parts, Korean syllables aside. -/
def joinings : List Joining := [
  ⟨0x300, "AEIOUaeiouÜüNnЕИеиĒēŌōWwÂâĂăÊêÔôƠơƯưYyἀἁ", "ÀÈÌÒÙàèìòùǛǜǸǹЀЍѐѝḔḕṐṑẀẁẦầẰằỀềỒồỜờỪừỲỳἂἃ"⟩,
  ⟨0x300, "ἈἉἐἑἘἙἠἡἨἩἰἱἸἹὀὁὈὉὐὑὙὠὡὨὩαεηιουωΑΕΗ᾿ϊΙ῾ϋ", "ἊἋἒἓἚἛἢἣἪἫἲἳἺἻὂὃὊὋὒὓὛὢὣὪὫὰὲὴὶὸὺὼᾺῈῊ῍ῒῚ῝ῢ"⟩,
  ⟨0x300, "Υ¨ΟΩ", "Ὺ῭ῸῺ"⟩,
  ⟨0x301, "AEIOUYaeiouyCcLlNnRrSsZzÜüGgÅåÆæØø¨ΑΕΗΙΟ", "ÁÉÍÓÚÝáéíóúýĆćĹĺŃńŔŕŚśŹźǗǘǴǵǺǻǼǽǾǿ΅ΆΈΉΊΌ"⟩,
  ⟨0x301, "ΥΩϊαεηιϋουωϒГКгкÇçĒēÏïKkMmÕõŌōPpŨũWwÂâĂă", "ΎΏΐάέήίΰόύώϓЃЌѓќḈḉḖḗḮḯḰḱḾḿṌṍṒṓṔṕṸṹẂẃẤấẮắ"⟩,
  ⟨0x301, "ÊêÔôƠơƯưἀἁἈἉἐἑἘἙἠἡἨἩἰἱἸἹὀὁὈὉὐὑὙὠὡὨὩ᾿῾", "ẾếỐốỚớỨứἄἅἌἍἔἕἜἝἤἥἬἭἴἵἼἽὄὅὌὍὔὕὝὤὥὬὭ῎῞"⟩,
  ⟨0x302, "AEIOUaeiouCcGgHhJjSsWwYyZzẠạẸẹỌọ", "ÂÊÎÔÛâêîôûĈĉĜĝĤĥĴĵŜŝŴŵŶŷẐẑẬậỆệỘộ"⟩,
  ⟨0x303, "ANOanoIiUuVvÂâĂăEeÊêÔôƠơƯưYy", "ÃÑÕãñõĨĩŨũṼṽẪẫẴẵẼẽỄễỖỗỠỡỮữỸỹ"⟩,
  ⟨0x304, "AaEeIiOoUuÜüÄäȦȧÆæǪǫÖöÕõȮȯYyИиУуGgḶḷṚṛαΑ", "ĀāĒēĪīŌōŪūǕǖǞǟǠǡǢǣǬǭȪȫȬȭȰȱȲȳӢӣӮӯḠḡḸḹṜṝᾱᾹ"⟩,
  ⟨0x304, "ιΙυΥ", "ῑῙῡῩ"⟩,
  ⟨0x306, "AaEeGgIiOoUuУИиуЖжАаЕеȨȩẠạαΑιΙυΥ", "ĂăĔĕĞğĬĭŎŏŬŭЎЙйўӁӂӐӑӖӗḜḝẶặᾰᾸῐῘῠῨ"⟩,
  ⟨0x307, "CcEeGgIZzAaOoBbDdFfHhMmNnPpRrSsŚśŠšṢṣTtW", "ĊċĖėĠġİŻżȦȧȮȯḂḃḊḋḞḟḢḣṀṁṄṅṖṗṘṙṠṡṤṥṦṧṨṩṪṫẆ"⟩,
  ⟨0x307, "wXxYyſ𐗒𐗚", "ẇẊẋẎẏẛ𐗉𐗤"⟩,
  ⟨0x308, "AEIOUaeiouyYΙΥιυϒЕІеіАаӘәЖжЗзИиОоӨөЭэУуЧ", "ÄËÏÖÜäëïöüÿŸΪΫϊϋϔЁЇёїӒӓӚӛӜӝӞӟӤӥӦӧӪӫӬӭӰӱӴ"⟩,
  ⟨0x308, "чЫыHhÕõŪūWwXxt", "ӵӸӹḦḧṎṏṺṻẄẅẌẍẗ"⟩,
  ⟨0x309, "AaÂâĂăEeÊêIiOoÔôƠơUuƯưYy", "ẢảẨẩẲẳẺẻỂểỈỉỎỏỔổỞởỦủỬửỶỷ"⟩,
  ⟨0x30A, "AaUuwy", "ÅåŮůẘẙ"⟩,
  ⟨0x30B, "OoUuУу", "ŐőŰűӲӳ"⟩,
  ⟨0x30C, "CcDdEeLlNnRrSsTtZzAaIiOoUuÜüGgKkƷʒjHh", "ČčĎďĚěĽľŇňŘřŠšŤťŽžǍǎǏǐǑǒǓǔǙǚǦǧǨǩǮǯǰȞȟ"⟩,
  ⟨0x30F, "AaEeIiOoRrUuѴѵ", "ȀȁȄȅȈȉȌȍȐȑȔȕѶѷ"⟩,
  ⟨0x311, "AaEeIiOoRrUu", "ȂȃȆȇȊȋȎȏȒȓȖȗ"⟩,
  ⟨0x313, "αΑεΕηΗιΙοΟυωΩρ", "ἀἈἐἘἠἨἰἸὀὈὐὠὨῤ"⟩,
  ⟨0x314, "αΑεΕηΗιΙοΟυΥωΩρΡ", "ἁἉἑἙἡἩἱἹὁὉὑὙὡὩῥῬ"⟩,
  ⟨0x31B, "OoUu", "ƠơƯư"⟩,
  ⟨0x323, "BbDdHhKkLlMmNnRrSsTtVvWwZzAaEeIiOoƠơUuƯư", "ḄḅḌḍḤḥḲḳḶḷṂṃṆṇṚṛṢṣṬṭṾṿẈẉẒẓẠạẸẹỊịỌọỢợỤụỰự"⟩,
  ⟨0x323, "Yy", "Ỵỵ"⟩,
  ⟨0x324, "Uu", "Ṳṳ"⟩,
  ⟨0x325, "Aa", "Ḁḁ"⟩,
  ⟨0x326, "SsTt", "ȘșȚț"⟩,
  ⟨0x327, "CcGgKkLlNnRrSsTtEeDdHh", "ÇçĢģĶķĻļŅņŖŗŞşŢţȨȩḐḑḨḩ"⟩,
  ⟨0x328, "AaEeIiUuOo", "ĄąĘęĮįŲųǪǫ"⟩,
  ⟨0x32D, "DdEeLlNnTtUu", "ḒḓḘḙḼḽṊṋṰṱṶṷ"⟩,
  ⟨0x32E, "Hh", "Ḫḫ"⟩,
  ⟨0x330, "EeIiUu", "ḚḛḬḭṴṵ"⟩,
  ⟨0x331, "BbDdKkLlNnRrTtZzh", "ḆḇḎḏḴḵḺḻṈṉṞṟṮṯẔẕẖ"⟩,
  ⟨0x338, "←→↔⇐⇔⇒∃∈∋∣∥∼≃≅≈=≡≍<>≤≥≲≳≶≷≺≻⊂⊃⊆⊇⊢⊨⊩⊫≼≽⊑⊒", "↚↛↮⇍⇎⇏∄∉∌∤∦≁≄≇≉≠≢≭≮≯≰≱≴≵≸≹⊀⊁⊄⊅⊈⊉⊬⊭⊮⊯⋠⋡⋢⋣"⟩,
  ⟨0x338, "⊲⊳⊴⊵", "⋪⋫⋬⋭"⟩,
  ⟨0x342, "ἀἁἈἉἠἡἨἩἰἱἸἹὐὑὙὠὡὨὩα¨η᾿ιϊ῾υϋω", "ἆἇἎἏἦἧἮἯἶἷἾἿὖὗὟὦὧὮὯᾶ῁ῆ῏ῖῗ῟ῦῧῶ"⟩,
  ⟨0x345, "ἀἁἂἃἄἅἆἇἈἉἊἋἌἍἎἏἠἡἢἣἤἥἦἧἨἩἪἫἬἭἮἯὠὡὢὣὤὥὦὧ", "ᾀᾁᾂᾃᾄᾅᾆᾇᾈᾉᾊᾋᾌᾍᾎᾏᾐᾑᾒᾓᾔᾕᾖᾗᾘᾙᾚᾛᾜᾝᾞᾟᾠᾡᾢᾣᾤᾥᾦᾧ"⟩,
  ⟨0x345, "ὨὩὪὫὬὭὮὯὰαάᾶΑὴηήῆΗὼωώῶΩ", "ᾨᾩᾪᾫᾬᾭᾮᾯᾲᾳᾴᾷᾼῂῃῄῇῌῲῳῴῷῼ"⟩,
  ⟨0x653, "\u0627", "\u0622"⟩,
  ⟨0x654, "\u0627\u0648\u064a\u06d5\u06c1\u06d2", "\u0623\u0624\u0626\u06c0\u06c2\u06d3"⟩,
  ⟨0x655, "\u0627", "\u0625"⟩,
  ⟨0x93C, "नरळ", "ऩऱऴ"⟩,
  ⟨0x9BE, "\u09c7", "\u09cb"⟩,
  ⟨0x9D7, "\u09c7", "\u09cc"⟩,
  ⟨0xB3E, "\u0b47", "\u0b4b"⟩,
  ⟨0xB56, "\u0b47", "\u0b48"⟩,
  ⟨0xB57, "\u0b47", "\u0b4c"⟩,
  ⟨0xBBE, "\u0bc6\u0bc7", "\u0bca\u0bcb"⟩,
  ⟨0xBD7, "ஒ\u0bc6", "ஔ\u0bcc"⟩,
  ⟨0xC56, "\u0c46", "\u0c48"⟩,
  ⟨0xCC2, "\u0cc6", "\u0cca"⟩,
  ⟨0xCD5, "\u0cbf\u0cc6\u0cca", "\u0cc0\u0cc7\u0ccb"⟩,
  ⟨0xCD6, "\u0cc6", "\u0cc8"⟩,
  ⟨0xD3E, "\u0d46\u0d47", "\u0d4a\u0d4b"⟩,
  ⟨0xD57, "\u0d46", "\u0d4c"⟩,
  ⟨0xDCA, "\u0dd9\u0ddc", "\u0dda\u0ddd"⟩,
  ⟨0xDCF, "\u0dd9", "\u0ddc"⟩,
  ⟨0xDDF, "\u0dd9", "\u0dde"⟩,
  ⟨0x102E, "ဥ", "ဦ"⟩,
  ⟨0x1B35, "ᬅᬇᬉᬋᬍᬑ\u1b3a\u1b3c\u1b3e\u1b3f\u1b42", "ᬆᬈᬊᬌᬎᬒ\u1b3b\u1b3d\u1b40\u1b41\u1b43"⟩,
  ⟨0x3099, "かきくけこさしすせそたちつてとはひふへほうゝカキクケコサシスセソタチツテトハヒフ", "がぎぐげござじずぜぞだぢづでどばびぶべぼゔゞガギグゲゴザジズゼゾダヂヅデドバビブ"⟩,
  ⟨0x3099, "ヘホウワヰヱヲヽ", "ベボヴヷヸヹヺヾ"⟩,
  ⟨0x309A, "はひふへほハヒフヘホ", "ぱぴぷぺぽパピプペポ"⟩,
  ⟨0x110BA, "𑂙𑂛𑂥", "𑂚𑂜𑂫"⟩,
  ⟨0x11127, "𑄱𑄲", "𑄮𑄯"⟩,
  ⟨0x1133E, "𑍇", "𑍋"⟩,
  ⟨0x11357, "𑍇", "𑍌"⟩,
  ⟨0x113B8, "𑏂", "𑏇"⟩,
  ⟨0x113BB, "𑎄", "𑎅"⟩,
  ⟨0x113C2, "𑎎", "𑎎𑏅"⟩,
  ⟨0x113C9, "𑎂𑎐𑏂", "𑎃𑎑𑏈"⟩,
  ⟨0x114B0, "𑒹", "𑒼"⟩,
  ⟨0x114BA, "𑒹", "𑒻"⟩,
  ⟨0x114BD, "𑒹", "𑒾"⟩,
  ⟨0x115AF, "𑖸𑖹", "𑖺𑖻"⟩,
  ⟨0x11930, "𑤵", "𑤸"⟩,
  ⟨0x1611E, "𖄞", "𖄡"⟩,
  ⟨0x1611F, "𖄢𖄡𖄢", "𖄣𖄤𖄦𖄧"⟩,
  ⟨0x16120, "𖄡𖄞", "𖄥𖄨"⟩,
  ⟨0x16129, "𖄞", "𖄢"⟩,
  ⟨0x16D67, "𖵧𖵣𖵩", "𖵨𖵩𖵪"⟩]

/-- A character of one list at the place that another one has in a list beside it. -/
def partner? (c : Char) : List Char → List Char → Option Char
  | a :: as, b :: bs => if a = c then some b else partner? c as bs
  | _, _ => none

/-- Where Korean syllables begin. -/
def syllableBase : Nat := 0xAC00

/-- Where the consonants that begin a syllable stand; there are 19 of them. -/
def leadBase : Nat := 0x1100

/-- Where the vowels of syllables stand; there are 21 of them. -/
def vowelBase : Nat := 0x1161

/-- Where the consonants that end a syllable stand, from the second of them on; with none to end it
there are 28 ways to end a syllable. -/
def tailBase : Nat := 0x11A7

/-- The two parts of a Korean syllable. -/
def syllableParts? (n : Nat) : Option (Nat × Nat) :=
  let index := n - syllableBase
  if n < syllableBase || 19 * 21 * 28 ≤ index then none
  else if index % 28 = 0 then
    some (leadBase + index / (21 * 28), vowelBase + index / 28 % 21)
  else some (n - index % 28, tailBase + index % 28)

/-- The Korean syllable of two parts. -/
def syllable? (a b : Nat) : Option Nat :=
  if leadBase ≤ a && a < leadBase + 19 && vowelBase ≤ b && b < vowelBase + 21 then
    some (syllableBase + ((a - leadBase) * 21 + (b - vowelBase)) * 28)
  else if syllableBase ≤ a && a < syllableBase + 19 * 21 * 28 && (a - syllableBase) % 28 = 0 &&
      tailBase < b && b < tailBase + 28 then
    some (a + (b - tailBase))
  else none

/-- The two parts of a character. -/
def parts? (c : Char) : Option (Char × Char) :=
  match syllableParts? c.toNat with
  | some (a, b) => some (Char.ofNat a, Char.ofNat b)
  | none =>
    joinings.findSome? fun j =>
      (partner? c j.wholes.toList j.firsts.toList).map fun first => (first, Char.ofNat j.second)

/-- The character that two parts make up. -/
def whole? (a b : Char) : Option Char :=
  match syllable? a.toNat b.toNat with
  | some n => some (Char.ofNat n)
  | none =>
    (joinings.filter fun j => j.second == b.toNat).findSome? fun j =>
      partner? a j.firsts.toList j.wholes.toList

/-- The parts of a character and their parts, as deep as `fuel`. -/
def decomposeWithin : Nat → Char → List Char
  | 0, c => [c]
  | fuel + 1, c =>
    match parts? c with
    | some (first, second) => decomposeWithin fuel first ++ [second]
    | none => [c]

/-- All parts of a character; parts nest no deeper than three times. -/
def decompose (c : Char) : List Char :=
  if c.val < 0x80 then [c] else decomposeWithin 3 c

/-- Put a character behind a text that is given backwards, before marks of a higher class. -/
def insertMark (c : Char) : List Char → List Char
  | [] => [c]
  | d :: before =>
    if 0 < combiningClass c && combiningClass c < combiningClass d then d :: insertMark c before
    else c :: d :: before

/-- A text with the marks behind each character in the order of their classes. -/
def sortMarks (cs : List Char) : List Char :=
  (cs.foldl (fun before c => insertMark c before) []).reverse

/-- Join a character with what follows it. `kept` are the marks behind it that cannot be joined with
it, the last one first. -/
def joinFrom (start : Char) (kept : List Char) : List Char → List Char
  | [] => start :: kept.reverse
  | c :: cs =>
    -- A mark of the same or a higher class stands between a character and a mark behind it.
    let isNear := (kept.head?.map fun d => decide (combiningClass d < combiningClass c)).getD true
    match if isNear then whole? start c else none with
    | some whole => joinFrom whole kept cs
    | none =>
      if combiningClass c = 0 then start :: kept.reverse ++ joinFrom c [] cs
      else joinFrom start (c :: kept) cs

/-- A text whose parts are joined as far as they can be. -/
def compose (cs : List Char) : List Char :=
  if cs.all fun c => c.val < 0x80 then cs
  else
    let sorted := sortMarks (cs.flatMap decompose)
    let loose := sorted.takeWhile fun c => 0 < combiningClass c
    match sorted.drop loose.length with
    | [] => loose
    | start :: rest => loose ++ joinFrom start [] rest

end StructUnfold.Text
