import PtpCore.Wallet.WordList

/-!
# The English word list (`ptp_wallet/data/word_lists/english.cpp`)

The words are kept as numbers, their ASCII codes read as base 256 digits: `0x61626c65` is the word
that `english.cpp` writes `0x61, 0x62, 0x6c, 0x65, 0`.
-/

namespace PtpCore
namespace Wallet

open Lib

/-- The word with code `n`, of at most `k` letters. -/
def spell : Nat → Nat → Bytes
  | 0, _ => []
  | k + 1, n => if n = 0 then [] else spell k (n / 256) ++ [UInt8.ofNat n]

set_option maxRecDepth 10000 in
/-- `en_`, word by word. -/
def enCodes : List Nat :=
  [0x6162616e646f6e, 0x6162696c697479, 0x61626c65, 0x61626f7574, 0x61626f7665, 0x616273656e74,
   0x6162736f7262, 0x6162737472616374, 0x616273757264, 0x6162757365, 0x616363657373,
   0x6163636964656e74, 0x6163636f756e74, 0x616363757365, 0x61636869657665, 0x61636964,
   0x61636f7573746963, 0x61637175697265, 0x6163726f7373, 0x616374, 0x616374696f6e, 0x6163746f72,
   0x61637472657373, 0x61637475616c, 0x6164617074, 0x616464, 0x616464696374, 0x61646472657373,
   0x61646a757374, 0x61646d6974, 0x6164756c74, 0x616476616e6365, 0x616476696365, 0x6165726f626963,
   0x616666616972, 0x6166666f7264, 0x616672616964, 0x616761696e, 0x616765, 0x6167656e74,
   0x6167726565, 0x6168656164, 0x61696d, 0x616972, 0x616972706f7274, 0x6169736c65, 0x616c61726d,
   0x616c62756d, 0x616c636f686f6c, 0x616c657274, 0x616c69656e, 0x616c6c, 0x616c6c6579, 0x616c6c6f77,
   0x616c6d6f7374, 0x616c6f6e65, 0x616c706861, 0x616c7265616479, 0x616c736f, 0x616c746572,
   0x616c77617973, 0x616d6174657572, 0x616d617a696e67, 0x616d6f6e67, 0x616d6f756e74, 0x616d75736564,
   0x616e616c797374, 0x616e63686f72, 0x616e6369656e74, 0x616e676572, 0x616e676c65, 0x616e677279,
   0x616e696d616c, 0x616e6b6c65, 0x616e6e6f756e6365, 0x616e6e75616c, 0x616e6f74686572,
   0x616e73776572, 0x616e74656e6e61, 0x616e7469717565, 0x616e7869657479, 0x616e79, 0x6170617274,
   0x61706f6c6f6779, 0x617070656172, 0x6170706c65, 0x617070726f7665, 0x617072696c, 0x61726368,
   0x617263746963, 0x61726561, 0x6172656e61, 0x6172677565, 0x61726d, 0x61726d6564, 0x61726d6f72,
   0x61726d79, 0x61726f756e64, 0x617272616e6765, 0x617272657374, 0x617272697665, 0x6172726f77,
   0x617274, 0x6172746566616374, 0x617274697374, 0x617274776f726b, 0x61736b, 0x617370656374,
   0x61737361756c74, 0x6173736574, 0x617373697374, 0x617373756d65, 0x617374686d61, 0x6174686c657465,
   0x61746f6d, 0x61747461636b, 0x617474656e64, 0x6174746974756465, 0x61747472616374,
   0x61756374696f6e, 0x6175646974, 0x617567757374, 0x61756e74, 0x617574686f72, 0x6175746f,
   0x617574756d6e, 0x61766572616765, 0x61766f6361646f, 0x61766f6964, 0x6177616b65, 0x6177617265,
   0x61776179, 0x617765736f6d65, 0x617766756c, 0x61776b77617264, 0x61786973, 0x62616279,
   0x62616368656c6f72, 0x6261636f6e, 0x6261646765, 0x626167, 0x62616c616e6365, 0x62616c636f6e79,
   0x62616c6c, 0x62616d626f6f, 0x62616e616e61, 0x62616e6e6572, 0x626172, 0x626172656c79,
   0x6261726761696e, 0x62617272656c, 0x62617365, 0x6261736963, 0x6261736b6574, 0x626174746c65,
   0x6265616368, 0x6265616e, 0x626561757479, 0x62656361757365, 0x6265636f6d65, 0x62656566,
   0x6265666f7265, 0x626567696e, 0x626568617665, 0x626568696e64, 0x62656c69657665, 0x62656c6f77,
   0x62656c74, 0x62656e6368, 0x62656e65666974, 0x62657374, 0x626574726179, 0x626574746572,
   0x6265747765656e, 0x6265796f6e64, 0x62696379636c65, 0x626964, 0x62696b65, 0x62696e64,
   0x62696f6c6f6779, 0x62697264, 0x6269727468, 0x626974746572, 0x626c61636b, 0x626c616465,
   0x626c616d65, 0x626c616e6b6574, 0x626c617374, 0x626c65616b, 0x626c657373, 0x626c696e64,
   0x626c6f6f64, 0x626c6f73736f6d, 0x626c6f757365, 0x626c7565, 0x626c7572, 0x626c757368,
   0x626f617264, 0x626f6174, 0x626f6479, 0x626f696c, 0x626f6d62, 0x626f6e65, 0x626f6e7573,
   0x626f6f6b, 0x626f6f7374, 0x626f72646572, 0x626f72696e67, 0x626f72726f77, 0x626f7373,
   0x626f74746f6d, 0x626f756e6365, 0x626f78, 0x626f79, 0x627261636b6574, 0x627261696e, 0x6272616e64,
   0x6272617373, 0x6272617665, 0x6272656164, 0x627265657a65, 0x627269636b, 0x627269646765,
   0x6272696566, 0x627269676874, 0x6272696e67, 0x627269736b, 0x62726f63636f6c69, 0x62726f6b656e,
   0x62726f6e7a65, 0x62726f6f6d, 0x62726f74686572, 0x62726f776e, 0x6272757368, 0x627562626c65,
   0x6275646479, 0x627564676574, 0x62756666616c6f, 0x6275696c64, 0x62756c62, 0x62756c6b,
   0x62756c6c6574, 0x62756e646c65, 0x62756e6b6572, 0x62757264656e, 0x627572676572, 0x6275727374,
   0x627573, 0x627573696e657373, 0x62757379, 0x627574746572, 0x6275796572, 0x62757a7a,
   0x63616262616765, 0x636162696e, 0x6361626c65, 0x636163747573, 0x63616765, 0x63616b65, 0x63616c6c,
   0x63616c6d, 0x63616d657261, 0x63616d70, 0x63616e, 0x63616e616c, 0x63616e63656c, 0x63616e6479,
   0x63616e6e6f6e, 0x63616e6f65, 0x63616e766173, 0x63616e796f6e, 0x63617061626c65, 0x6361706974616c,
   0x6361707461696e, 0x636172, 0x636172626f6e, 0x63617264, 0x636172676f, 0x636172706574,
   0x6361727279, 0x63617274, 0x63617365, 0x63617368, 0x636173696e6f, 0x636173746c65, 0x63617375616c,
   0x636174, 0x636174616c6f67, 0x6361746368, 0x63617465676f7279, 0x636174746c65, 0x636175676874,
   0x6361757365, 0x63617574696f6e, 0x63617665, 0x6365696c696e67, 0x63656c657279, 0x63656d656e74,
   0x63656e737573, 0x63656e74757279, 0x63657265616c, 0x6365727461696e, 0x6368616972, 0x6368616c6b,
   0x6368616d70696f6e, 0x6368616e6765, 0x6368616f73, 0x63686170746572, 0x636861726765, 0x6368617365,
   0x63686174, 0x6368656170, 0x636865636b, 0x636865657365, 0x63686566, 0x636865727279, 0x6368657374,
   0x636869636b656e, 0x6368696566, 0x6368696c64, 0x6368696d6e6579, 0x63686f696365, 0x63686f6f7365,
   0x6368726f6e6963, 0x636875636b6c65, 0x6368756e6b, 0x636875726e, 0x6369676172, 0x63696e6e616d6f6e,
   0x636972636c65, 0x636974697a656e, 0x63697479, 0x636976696c, 0x636c61696d, 0x636c6170,
   0x636c6172696679, 0x636c6177, 0x636c6179, 0x636c65616e, 0x636c65726b, 0x636c65766572,
   0x636c69636b, 0x636c69656e74, 0x636c696666, 0x636c696d62, 0x636c696e6963, 0x636c6970,
   0x636c6f636b, 0x636c6f67, 0x636c6f7365, 0x636c6f7468, 0x636c6f7564, 0x636c6f776e, 0x636c7562,
   0x636c756d70, 0x636c7573746572, 0x636c75746368, 0x636f616368, 0x636f617374, 0x636f636f6e7574,
   0x636f6465, 0x636f66666565, 0x636f696c, 0x636f696e, 0x636f6c6c656374, 0x636f6c6f72,
   0x636f6c756d6e, 0x636f6d62696e65, 0x636f6d65, 0x636f6d666f7274, 0x636f6d6963, 0x636f6d6d6f6e,
   0x636f6d70616e79, 0x636f6e63657274, 0x636f6e64756374, 0x636f6e6669726d, 0x636f6e6772657373,
   0x636f6e6e656374, 0x636f6e7369646572, 0x636f6e74726f6c, 0x636f6e76696e6365, 0x636f6f6b,
   0x636f6f6c, 0x636f70706572, 0x636f7079, 0x636f72616c, 0x636f7265, 0x636f726e, 0x636f7272656374,
   0x636f7374, 0x636f74746f6e, 0x636f756368, 0x636f756e747279, 0x636f75706c65, 0x636f75727365,
   0x636f7573696e, 0x636f766572, 0x636f796f7465, 0x637261636b, 0x637261646c65, 0x6372616674,
   0x6372616d, 0x6372616e65, 0x6372617368, 0x637261746572, 0x637261776c, 0x6372617a79, 0x637265616d,
   0x637265646974, 0x637265656b, 0x63726577, 0x637269636b6574, 0x6372696d65, 0x6372697370,
   0x637269746963, 0x63726f70, 0x63726f7373, 0x63726f756368, 0x63726f7764, 0x6372756369616c,
   0x637275656c, 0x637275697365, 0x6372756d626c65, 0x6372756e6368, 0x6372757368, 0x637279,
   0x6372797374616c, 0x63756265, 0x63756c74757265, 0x637570, 0x637570626f617264, 0x637572696f7573,
   0x63757272656e74, 0x6375727461696e, 0x6375727665, 0x63757368696f6e, 0x637573746f6d, 0x63757465,
   0x6379636c65, 0x646164, 0x64616d616765, 0x64616d70, 0x64616e6365, 0x64616e676572, 0x646172696e67,
   0x64617368, 0x6461756768746572, 0x6461776e, 0x646179, 0x6465616c, 0x646562617465, 0x646562726973,
   0x646563616465, 0x646563656d626572, 0x646563696465, 0x6465636c696e65, 0x6465636f72617465,
   0x6465637265617365, 0x64656572, 0x646566656e7365, 0x646566696e65, 0x64656679, 0x646567726565,
   0x64656c6179, 0x64656c69766572, 0x64656d616e64, 0x64656d697365, 0x64656e69616c, 0x64656e74697374,
   0x64656e79, 0x646570617274, 0x646570656e64, 0x6465706f736974, 0x6465707468, 0x646570757479,
   0x646572697665, 0x6465736372696265, 0x646573657274, 0x64657369676e, 0x6465736b, 0x64657370616972,
   0x64657374726f79, 0x64657461696c, 0x646574656374, 0x646576656c6f70, 0x646576696365,
   0x6465766f7465, 0x6469616772616d, 0x6469616c, 0x6469616d6f6e64, 0x6469617279, 0x64696365,
   0x64696573656c, 0x64696574, 0x646966666572, 0x6469676974616c, 0x6469676e697479, 0x64696c656d6d61,
   0x64696e6e6572, 0x64696e6f73617572, 0x646972656374, 0x64697274, 0x6469736167726565,
   0x646973636f766572, 0x64697365617365, 0x64697368, 0x6469736d697373, 0x6469736f72646572,
   0x646973706c6179, 0x64697374616e6365, 0x646976657274, 0x646976696465, 0x6469766f726365,
   0x64697a7a79, 0x646f63746f72, 0x646f63756d656e74, 0x646f67, 0x646f6c6c, 0x646f6c7068696e,
   0x646f6d61696e, 0x646f6e617465, 0x646f6e6b6579, 0x646f6e6f72, 0x646f6f72, 0x646f7365,
   0x646f75626c65, 0x646f7665, 0x6472616674, 0x647261676f6e, 0x6472616d61, 0x64726173746963,
   0x64726177, 0x647265616d, 0x6472657373, 0x6472696674, 0x6472696c6c, 0x6472696e6b, 0x64726970,
   0x6472697665, 0x64726f70, 0x6472756d, 0x647279, 0x6475636b, 0x64756d62, 0x64756e65,
   0x647572696e67, 0x64757374, 0x6475746368, 0x64757479, 0x6477617266, 0x64796e616d6963,
   0x6561676572, 0x6561676c65, 0x6561726c79, 0x6561726e, 0x6561727468, 0x656173696c79, 0x65617374,
   0x65617379, 0x6563686f, 0x65636f6c6f6779, 0x65636f6e6f6d79, 0x65646765, 0x65646974,
   0x65647563617465, 0x6566666f7274, 0x656767, 0x6569676874, 0x656974686572, 0x656c626f77,
   0x656c646572, 0x656c656374726963, 0x656c6567616e74, 0x656c656d656e74, 0x656c657068616e74,
   0x656c657661746f72, 0x656c697465, 0x656c7365, 0x656d6261726b, 0x656d626f6479, 0x656d6272616365,
   0x656d65726765, 0x656d6f74696f6e, 0x656d706c6f79, 0x656d706f776572, 0x656d707479, 0x656e61626c65,
   0x656e616374, 0x656e64, 0x656e646c657373, 0x656e646f727365, 0x656e656d79, 0x656e65726779,
   0x656e666f726365, 0x656e67616765, 0x656e67696e65, 0x656e68616e6365, 0x656e6a6f79, 0x656e6c697374,
   0x656e6f756768, 0x656e72696368, 0x656e726f6c6c, 0x656e73757265, 0x656e746572, 0x656e74697265,
   0x656e747279, 0x656e76656c6f7065, 0x657069736f6465, 0x657175616c, 0x6571756970, 0x657261,
   0x6572617365, 0x65726f6465, 0x65726f73696f6e, 0x6572726f72, 0x6572757074, 0x657363617065,
   0x6573736179, 0x657373656e6365, 0x657374617465, 0x657465726e616c, 0x657468696373,
   0x65766964656e6365, 0x6576696c, 0x65766f6b65, 0x65766f6c7665, 0x6578616374, 0x6578616d706c65,
   0x657863657373, 0x65786368616e6765, 0x657863697465, 0x6578636c756465, 0x657863757365,
   0x65786563757465, 0x6578657263697365, 0x65786861757374, 0x65786869626974, 0x6578696c65,
   0x6578697374, 0x65786974, 0x65786f746963, 0x657870616e64, 0x657870656374, 0x657870697265,
   0x6578706c61696e, 0x6578706f7365, 0x65787072657373, 0x657874656e64, 0x6578747261, 0x657965,
   0x65796562726f77, 0x666162726963, 0x66616365, 0x666163756c7479, 0x66616465, 0x6661696e74,
   0x6661697468, 0x66616c6c, 0x66616c7365, 0x66616d65, 0x66616d696c79, 0x66616d6f7573, 0x66616e,
   0x66616e6379, 0x66616e74617379, 0x6661726d, 0x66617368696f6e, 0x666174, 0x666174616c,
   0x666174686572, 0x66617469677565, 0x6661756c74, 0x6661766f72697465, 0x66656174757265,
   0x6665627275617279, 0x6665646572616c, 0x666565, 0x66656564, 0x6665656c, 0x66656d616c65,
   0x66656e6365, 0x666573746976616c, 0x6665746368, 0x6665766572, 0x666577, 0x6669626572,
   0x66696374696f6e, 0x6669656c64, 0x666967757265, 0x66696c65, 0x66696c6d, 0x66696c746572,
   0x66696e616c, 0x66696e64, 0x66696e65, 0x66696e676572, 0x66696e697368, 0x66697265, 0x6669726d,
   0x6669727374, 0x66697363616c, 0x66697368, 0x666974, 0x6669746e657373, 0x666978, 0x666c6167,
   0x666c616d65, 0x666c617368, 0x666c6174, 0x666c61766f72, 0x666c6565, 0x666c69676874, 0x666c6970,
   0x666c6f6174, 0x666c6f636b, 0x666c6f6f72, 0x666c6f776572, 0x666c756964, 0x666c757368, 0x666c79,
   0x666f616d, 0x666f637573, 0x666f67, 0x666f696c, 0x666f6c64, 0x666f6c6c6f77, 0x666f6f64,
   0x666f6f74, 0x666f726365, 0x666f72657374, 0x666f72676574, 0x666f726b, 0x666f7274756e65,
   0x666f72756d, 0x666f7277617264, 0x666f7373696c, 0x666f73746572, 0x666f756e64, 0x666f78,
   0x66726167696c65, 0x6672616d65, 0x6672657175656e74, 0x6672657368, 0x667269656e64, 0x6672696e6765,
   0x66726f67, 0x66726f6e74, 0x66726f7374, 0x66726f776e, 0x66726f7a656e, 0x6672756974, 0x6675656c,
   0x66756e, 0x66756e6e79, 0x6675726e616365, 0x66757279, 0x667574757265, 0x676164676574, 0x6761696e,
   0x67616c617879, 0x67616c6c657279, 0x67616d65, 0x676170, 0x676172616765, 0x67617262616765,
   0x67617264656e, 0x6761726c6963, 0x6761726d656e74, 0x676173, 0x67617370, 0x67617465,
   0x676174686572, 0x6761756765, 0x67617a65, 0x67656e6572616c, 0x67656e697573, 0x67656e7265,
   0x67656e746c65, 0x67656e75696e65, 0x67657374757265, 0x67686f7374, 0x6769616e74, 0x67696674,
   0x676967676c65, 0x67696e676572, 0x67697261666665, 0x6769726c, 0x67697665, 0x676c6164,
   0x676c616e6365, 0x676c617265, 0x676c617373, 0x676c696465, 0x676c696d707365, 0x676c6f6265,
   0x676c6f6f6d, 0x676c6f7279, 0x676c6f7665, 0x676c6f77, 0x676c7565, 0x676f6174, 0x676f6464657373,
   0x676f6c64, 0x676f6f64, 0x676f6f7365, 0x676f72696c6c61, 0x676f7370656c, 0x676f73736970,
   0x676f7665726e, 0x676f776e, 0x67726162, 0x6772616365, 0x677261696e, 0x6772616e74, 0x6772617065,
   0x6772617373, 0x67726176697479, 0x6772656174, 0x677265656e, 0x67726964, 0x6772696566, 0x67726974,
   0x67726f63657279, 0x67726f7570, 0x67726f77, 0x6772756e74, 0x6775617264, 0x6775657373,
   0x6775696465, 0x6775696c74, 0x677569746172, 0x67756e, 0x67796d, 0x6861626974, 0x68616972,
   0x68616c66, 0x68616d6d6572, 0x68616d73746572, 0x68616e64, 0x6861707079, 0x686172626f72,
   0x68617264, 0x6861727368, 0x68617276657374, 0x686174, 0x68617665, 0x6861776b, 0x68617a617264,
   0x68656164, 0x6865616c7468, 0x6865617274, 0x6865617679, 0x6865646765686f67, 0x686569676874,
   0x68656c6c6f, 0x68656c6d6574, 0x68656c70, 0x68656e, 0x6865726f, 0x68696464656e, 0x68696768,
   0x68696c6c, 0x68696e74, 0x686970, 0x68697265, 0x686973746f7279, 0x686f626279, 0x686f636b6579,
   0x686f6c64, 0x686f6c65, 0x686f6c69646179, 0x686f6c6c6f77, 0x686f6d65, 0x686f6e6579, 0x686f6f64,
   0x686f7065, 0x686f726e, 0x686f72726f72, 0x686f727365, 0x686f73706974616c, 0x686f7374,
   0x686f74656c, 0x686f7572, 0x686f766572, 0x687562, 0x68756765, 0x68756d616e, 0x68756d626c65,
   0x68756d6f72, 0x68756e64726564, 0x68756e677279, 0x68756e74, 0x687572646c65, 0x6875727279,
   0x68757274, 0x68757362616e64, 0x687962726964, 0x696365, 0x69636f6e, 0x69646561,
   0x6964656e74696679, 0x69646c65, 0x69676e6f7265, 0x696c6c, 0x696c6c6567616c, 0x696c6c6e657373,
   0x696d616765, 0x696d6974617465, 0x696d6d656e7365, 0x696d6d756e65, 0x696d70616374, 0x696d706f7365,
   0x696d70726f7665, 0x696d70756c7365, 0x696e6368, 0x696e636c756465, 0x696e636f6d65,
   0x696e637265617365, 0x696e646578, 0x696e646963617465, 0x696e646f6f72, 0x696e647573747279,
   0x696e66616e74, 0x696e666c696374, 0x696e666f726d, 0x696e68616c65, 0x696e6865726974,
   0x696e697469616c, 0x696e6a656374, 0x696e6a757279, 0x696e6d617465, 0x696e6e6572,
   0x696e6e6f63656e74, 0x696e707574, 0x696e7175697279, 0x696e73616e65, 0x696e73656374,
   0x696e73696465, 0x696e7370697265, 0x696e7374616c6c, 0x696e74616374, 0x696e746572657374,
   0x696e746f, 0x696e76657374, 0x696e76697465, 0x696e766f6c7665, 0x69726f6e, 0x69736c616e64,
   0x69736f6c617465, 0x6973737565, 0x6974656d, 0x69766f7279, 0x6a61636b6574, 0x6a6167756172,
   0x6a6172, 0x6a617a7a, 0x6a65616c6f7573, 0x6a65616e73, 0x6a656c6c79, 0x6a6577656c, 0x6a6f62,
   0x6a6f696e, 0x6a6f6b65, 0x6a6f75726e6579, 0x6a6f79, 0x6a75646765, 0x6a75696365, 0x6a756d70,
   0x6a756e676c65, 0x6a756e696f72, 0x6a756e6b, 0x6a757374, 0x6b616e6761726f6f, 0x6b65656e,
   0x6b656570, 0x6b657463687570, 0x6b6579, 0x6b69636b, 0x6b6964, 0x6b69646e6579, 0x6b696e64,
   0x6b696e67646f6d, 0x6b697373, 0x6b6974, 0x6b69746368656e, 0x6b697465, 0x6b697474656e, 0x6b697769,
   0x6b6e6565, 0x6b6e696665, 0x6b6e6f636b, 0x6b6e6f77, 0x6c6162, 0x6c6162656c, 0x6c61626f72,
   0x6c6164646572, 0x6c616479, 0x6c616b65, 0x6c616d70, 0x6c616e6775616765, 0x6c6170746f70,
   0x6c61726765, 0x6c61746572, 0x6c6174696e, 0x6c61756768, 0x6c61756e647279, 0x6c617661, 0x6c6177,
   0x6c61776e, 0x6c617773756974, 0x6c61796572, 0x6c617a79, 0x6c6561646572, 0x6c656166, 0x6c6561726e,
   0x6c65617665, 0x6c656374757265, 0x6c656674, 0x6c6567, 0x6c6567616c, 0x6c6567656e64,
   0x6c656973757265, 0x6c656d6f6e, 0x6c656e64, 0x6c656e677468, 0x6c656e73, 0x6c656f70617264,
   0x6c6573736f6e, 0x6c6574746572, 0x6c6576656c, 0x6c696172, 0x6c696265727479, 0x6c696272617279,
   0x6c6963656e7365, 0x6c696665, 0x6c696674, 0x6c69676874, 0x6c696b65, 0x6c696d62, 0x6c696d6974,
   0x6c696e6b, 0x6c696f6e, 0x6c6971756964, 0x6c697374, 0x6c6974746c65, 0x6c697665, 0x6c697a617264,
   0x6c6f6164, 0x6c6f616e, 0x6c6f6273746572, 0x6c6f63616c, 0x6c6f636b, 0x6c6f676963, 0x6c6f6e656c79,
   0x6c6f6e67, 0x6c6f6f70, 0x6c6f7474657279, 0x6c6f7564, 0x6c6f756e6765, 0x6c6f7665, 0x6c6f79616c,
   0x6c75636b79, 0x6c756767616765, 0x6c756d626572, 0x6c756e6172, 0x6c756e6368, 0x6c7578757279,
   0x6c7972696373, 0x6d616368696e65, 0x6d6164, 0x6d61676963, 0x6d61676e6574, 0x6d616964, 0x6d61696c,
   0x6d61696e, 0x6d616a6f72, 0x6d616b65, 0x6d616d6d616c, 0x6d616e, 0x6d616e616765, 0x6d616e64617465,
   0x6d616e676f, 0x6d616e73696f6e, 0x6d616e75616c, 0x6d61706c65, 0x6d6172626c65, 0x6d61726368,
   0x6d617267696e, 0x6d6172696e65, 0x6d61726b6574, 0x6d61727269616765, 0x6d61736b, 0x6d617373,
   0x6d6173746572, 0x6d61746368, 0x6d6174657269616c, 0x6d617468, 0x6d6174726978, 0x6d6174746572,
   0x6d6178696d756d, 0x6d617a65, 0x6d6561646f77, 0x6d65616e, 0x6d656173757265, 0x6d656174,
   0x6d656368616e6963, 0x6d6564616c, 0x6d65646961, 0x6d656c6f6479, 0x6d656c74, 0x6d656d626572,
   0x6d656d6f7279, 0x6d656e74696f6e, 0x6d656e75, 0x6d65726379, 0x6d65726765, 0x6d65726974,
   0x6d65727279, 0x6d657368, 0x6d657373616765, 0x6d6574616c, 0x6d6574686f64, 0x6d6964646c65,
   0x6d69646e69676874, 0x6d696c6b, 0x6d696c6c696f6e, 0x6d696d6963, 0x6d696e64, 0x6d696e696d756d,
   0x6d696e6f72, 0x6d696e757465, 0x6d697261636c65, 0x6d6972726f72, 0x6d6973657279, 0x6d697373,
   0x6d697374616b65, 0x6d6978, 0x6d69786564, 0x6d697874757265, 0x6d6f62696c65, 0x6d6f64656c,
   0x6d6f64696679, 0x6d6f6d, 0x6d6f6d656e74, 0x6d6f6e69746f72, 0x6d6f6e6b6579, 0x6d6f6e73746572,
   0x6d6f6e7468, 0x6d6f6f6e, 0x6d6f72616c, 0x6d6f7265, 0x6d6f726e696e67, 0x6d6f73717569746f,
   0x6d6f74686572, 0x6d6f74696f6e, 0x6d6f746f72, 0x6d6f756e7461696e, 0x6d6f757365, 0x6d6f7665,
   0x6d6f766965, 0x6d756368, 0x6d756666696e, 0x6d756c65, 0x6d756c7469706c79, 0x6d7573636c65,
   0x6d757365756d, 0x6d757368726f6f6d, 0x6d75736963, 0x6d757374, 0x6d757475616c, 0x6d7973656c66,
   0x6d797374657279, 0x6d797468, 0x6e61697665, 0x6e616d65, 0x6e61706b696e, 0x6e6172726f77,
   0x6e61737479, 0x6e6174696f6e, 0x6e6174757265, 0x6e656172, 0x6e65636b, 0x6e656564,
   0x6e65676174697665, 0x6e65676c656374, 0x6e656974686572, 0x6e6570686577, 0x6e65727665, 0x6e657374,
   0x6e6574, 0x6e6574776f726b, 0x6e65757472616c, 0x6e65766572, 0x6e657773, 0x6e657874, 0x6e696365,
   0x6e69676874, 0x6e6f626c65, 0x6e6f697365, 0x6e6f6d696e6565, 0x6e6f6f646c65, 0x6e6f726d616c,
   0x6e6f727468, 0x6e6f7365, 0x6e6f7461626c65, 0x6e6f7465, 0x6e6f7468696e67, 0x6e6f74696365,
   0x6e6f76656c, 0x6e6f77, 0x6e75636c656172, 0x6e756d626572, 0x6e75727365, 0x6e7574, 0x6f616b,
   0x6f626579, 0x6f626a656374, 0x6f626c696765, 0x6f627363757265, 0x6f627365727665, 0x6f627461696e,
   0x6f6276696f7573, 0x6f63637572, 0x6f6365616e, 0x6f63746f626572, 0x6f646f72, 0x6f6666,
   0x6f66666572, 0x6f6666696365, 0x6f6674656e, 0x6f696c, 0x6f6b6179, 0x6f6c64, 0x6f6c697665,
   0x6f6c796d706963, 0x6f6d6974, 0x6f6e6365, 0x6f6e65, 0x6f6e696f6e, 0x6f6e6c696e65, 0x6f6e6c79,
   0x6f70656e, 0x6f70657261, 0x6f70696e696f6e, 0x6f70706f7365, 0x6f7074696f6e, 0x6f72616e6765,
   0x6f72626974, 0x6f726368617264, 0x6f72646572, 0x6f7264696e617279, 0x6f7267616e, 0x6f7269656e74,
   0x6f726967696e616c, 0x6f727068616e, 0x6f737472696368, 0x6f74686572, 0x6f7574646f6f72,
   0x6f75746572, 0x6f7574707574, 0x6f757473696465, 0x6f76616c, 0x6f76656e, 0x6f766572, 0x6f776e,
   0x6f776e6572, 0x6f787967656e, 0x6f7973746572, 0x6f7a6f6e65, 0x70616374, 0x706164646c65,
   0x70616765, 0x70616972, 0x70616c616365, 0x70616c6d, 0x70616e6461, 0x70616e656c, 0x70616e6963,
   0x70616e74686572, 0x7061706572, 0x706172616465, 0x706172656e74, 0x7061726b, 0x706172726f74,
   0x7061727479, 0x70617373, 0x7061746368, 0x70617468, 0x70617469656e74, 0x706174726f6c,
   0x7061747465726e, 0x7061757365, 0x70617665, 0x7061796d656e74, 0x7065616365, 0x7065616e7574,
   0x70656172, 0x70656173616e74, 0x70656c6963616e, 0x70656e, 0x70656e616c7479, 0x70656e63696c,
   0x70656f706c65, 0x706570706572, 0x70657266656374, 0x7065726d6974, 0x706572736f6e, 0x706574,
   0x70686f6e65, 0x70686f746f, 0x706872617365, 0x706879736963616c, 0x7069616e6f, 0x7069636e6963,
   0x70696374757265, 0x7069656365, 0x706967, 0x706967656f6e, 0x70696c6c, 0x70696c6f74, 0x70696e6b,
   0x70696f6e656572, 0x70697065, 0x706973746f6c, 0x7069746368, 0x70697a7a61, 0x706c616365,
   0x706c616e6574, 0x706c6173746963, 0x706c617465, 0x706c6179, 0x706c65617365, 0x706c65646765,
   0x706c75636b, 0x706c7567, 0x706c756e6765, 0x706f656d, 0x706f6574, 0x706f696e74, 0x706f6c6172,
   0x706f6c65, 0x706f6c696365, 0x706f6e64, 0x706f6e79, 0x706f6f6c, 0x706f70756c6172,
   0x706f7274696f6e, 0x706f736974696f6e, 0x706f737369626c65, 0x706f7374, 0x706f7461746f,
   0x706f7474657279, 0x706f7665727479, 0x706f77646572, 0x706f776572, 0x7072616374696365,
   0x707261697365, 0x70726564696374, 0x707265666572, 0x70726570617265, 0x70726573656e74,
   0x707265747479, 0x70726576656e74, 0x7072696365, 0x7072696465, 0x7072696d617279, 0x7072696e74,
   0x7072696f72697479, 0x707269736f6e, 0x70726976617465, 0x7072697a65, 0x70726f626c656d,
   0x70726f63657373, 0x70726f64756365, 0x70726f666974, 0x70726f6772616d, 0x70726f6a656374,
   0x70726f6d6f7465, 0x70726f6f66, 0x70726f7065727479, 0x70726f73706572, 0x70726f74656374,
   0x70726f7564, 0x70726f76696465, 0x7075626c6963, 0x70756464696e67, 0x70756c6c, 0x70756c70,
   0x70756c7365, 0x70756d706b696e, 0x70756e6368, 0x707570696c, 0x7075707079, 0x7075726368617365,
   0x707572697479, 0x707572706f7365, 0x7075727365, 0x70757368, 0x707574, 0x70757a7a6c65,
   0x707972616d6964, 0x7175616c697479, 0x7175616e74756d, 0x71756172746572, 0x7175657374696f6e,
   0x717569636b, 0x71756974, 0x7175697a, 0x71756f7465, 0x726162626974, 0x726163636f6f6e, 0x72616365,
   0x7261636b, 0x7261646172, 0x726164696f, 0x7261696c, 0x7261696e, 0x7261697365, 0x72616c6c79,
   0x72616d70, 0x72616e6368, 0x72616e646f6d, 0x72616e6765, 0x7261706964, 0x72617265, 0x72617465,
   0x726174686572, 0x726176656e, 0x726177, 0x72617a6f72, 0x7265616479, 0x7265616c, 0x726561736f6e,
   0x726562656c, 0x72656275696c64, 0x726563616c6c, 0x72656365697665, 0x726563697065, 0x7265636f7264,
   0x72656379636c65, 0x726564756365, 0x7265666c656374, 0x7265666f726d, 0x726566757365,
   0x726567696f6e, 0x726567726574, 0x726567756c6172, 0x72656a656374, 0x72656c6178, 0x72656c65617365,
   0x72656c696566, 0x72656c79, 0x72656d61696e, 0x72656d656d626572, 0x72656d696e64, 0x72656d6f7665,
   0x72656e646572, 0x72656e6577, 0x72656e74, 0x72656f70656e, 0x726570616972, 0x726570656174,
   0x7265706c616365, 0x7265706f7274, 0x72657175697265, 0x726573637565, 0x726573656d626c65,
   0x726573697374, 0x7265736f75726365, 0x726573706f6e7365, 0x726573756c74, 0x726574697265,
   0x72657472656174, 0x72657475726e, 0x7265756e696f6e, 0x72657665616c, 0x726576696577,
   0x726577617264, 0x72687974686d, 0x726962, 0x726962626f6e, 0x72696365, 0x72696368, 0x72696465,
   0x7269646765, 0x7269666c65, 0x7269676874, 0x7269676964, 0x72696e67, 0x72696f74, 0x726970706c65,
   0x7269736b, 0x72697475616c, 0x726976616c, 0x7269766572, 0x726f6164, 0x726f617374, 0x726f626f74,
   0x726f62757374, 0x726f636b6574, 0x726f6d616e6365, 0x726f6f66, 0x726f6f6b6965, 0x726f6f6d,
   0x726f7365, 0x726f74617465, 0x726f756768, 0x726f756e64, 0x726f757465, 0x726f79616c,
   0x727562626572, 0x72756465, 0x727567, 0x72756c65, 0x72756e, 0x72756e776179, 0x727572616c,
   0x736164, 0x736164646c65, 0x7361646e657373, 0x73616665, 0x7361696c, 0x73616c6164, 0x73616c6d6f6e,
   0x73616c6f6e, 0x73616c74, 0x73616c757465, 0x73616d65, 0x73616d706c65, 0x73616e64,
   0x73617469736679, 0x7361746f736869, 0x7361756365, 0x73617573616765, 0x73617665, 0x736179,
   0x7363616c65, 0x7363616e, 0x7363617265, 0x73636174746572, 0x7363656e65, 0x736368656d65,
   0x7363686f6f6c, 0x736369656e6365, 0x73636973736f7273, 0x73636f7270696f6e, 0x73636f7574,
   0x7363726170, 0x73637265656e, 0x736372697074, 0x7363727562, 0x736561, 0x736561726368,
   0x736561736f6e, 0x73656174, 0x7365636f6e64, 0x736563726574, 0x73656374696f6e, 0x7365637572697479,
   0x73656564, 0x7365656b, 0x7365676d656e74, 0x73656c656374, 0x73656c6c, 0x73656d696e6172,
   0x73656e696f72, 0x73656e7365, 0x73656e74656e6365, 0x736572696573, 0x73657276696365,
   0x73657373696f6e, 0x736574746c65, 0x7365747570, 0x736576656e, 0x736861646f77, 0x7368616674,
   0x7368616c6c6f77, 0x7368617265, 0x73686564, 0x7368656c6c, 0x73686572696666, 0x736869656c64,
   0x7368696674, 0x7368696e65, 0x73686970, 0x736869766572, 0x73686f636b, 0x73686f65, 0x73686f6f74,
   0x73686f70, 0x73686f7274, 0x73686f756c646572, 0x73686f7665, 0x736872696d70, 0x7368727567,
   0x73687566666c65, 0x736879, 0x7369626c696e67, 0x7369636b, 0x73696465, 0x7369656765, 0x7369676874,
   0x7369676e, 0x73696c656e74, 0x73696c6b, 0x73696c6c79, 0x73696c766572, 0x73696d696c6172,
   0x73696d706c65, 0x73696e6365, 0x73696e67, 0x736972656e, 0x736973746572, 0x73697475617465,
   0x736978, 0x73697a65, 0x736b617465, 0x736b65746368, 0x736b69, 0x736b696c6c, 0x736b696e,
   0x736b697274, 0x736b756c6c, 0x736c6162, 0x736c616d, 0x736c656570, 0x736c656e646572, 0x736c696365,
   0x736c696465, 0x736c69676874, 0x736c696d, 0x736c6f67616e, 0x736c6f74, 0x736c6f77, 0x736c757368,
   0x736d616c6c, 0x736d617274, 0x736d696c65, 0x736d6f6b65, 0x736d6f6f7468, 0x736e61636b,
   0x736e616b65, 0x736e6170, 0x736e696666, 0x736e6f77, 0x736f6170, 0x736f63636572, 0x736f6369616c,
   0x736f636b, 0x736f6461, 0x736f6674, 0x736f6c6172, 0x736f6c64696572, 0x736f6c6964,
   0x736f6c7574696f6e, 0x736f6c7665, 0x736f6d656f6e65, 0x736f6e67, 0x736f6f6e, 0x736f727279,
   0x736f7274, 0x736f756c, 0x736f756e64, 0x736f7570, 0x736f75726365, 0x736f757468, 0x7370616365,
   0x7370617265, 0x7370617469616c, 0x737061776e, 0x737065616b, 0x7370656369616c, 0x7370656564,
   0x7370656c6c, 0x7370656e64, 0x737068657265, 0x7370696365, 0x737069646572, 0x7370696b65,
   0x7370696e, 0x737069726974, 0x73706c6974, 0x73706f696c, 0x73706f6e736f72, 0x73706f6f6e,
   0x73706f7274, 0x73706f74, 0x7370726179, 0x737072656164, 0x737072696e67, 0x737079, 0x737175617265,
   0x73717565657a65, 0x737175697272656c, 0x737461626c65, 0x7374616469756d, 0x7374616666,
   0x7374616765, 0x737461697273, 0x7374616d70, 0x7374616e64, 0x7374617274, 0x7374617465, 0x73746179,
   0x737465616b, 0x737465656c, 0x7374656d, 0x73746570, 0x73746572656f, 0x737469636b, 0x7374696c6c,
   0x7374696e67, 0x73746f636b, 0x73746f6d616368, 0x73746f6e65, 0x73746f6f6c, 0x73746f7279,
   0x73746f7665, 0x7374726174656779, 0x737472656574, 0x737472696b65, 0x7374726f6e67,
   0x7374727567676c65, 0x73747564656e74, 0x7374756666, 0x7374756d626c65, 0x7374796c65,
   0x7375626a656374, 0x7375626d6974, 0x737562776179, 0x73756363657373, 0x73756368, 0x73756464656e,
   0x737566666572, 0x7375676172, 0x73756767657374, 0x73756974, 0x73756d6d6572, 0x73756e,
   0x73756e6e79, 0x73756e736574, 0x7375706572, 0x737570706c79, 0x73757072656d65, 0x73757265,
   0x73757266616365, 0x7375726765, 0x7375727072697365, 0x737572726f756e64, 0x737572766579,
   0x73757370656374, 0x7375737461696e, 0x7377616c6c6f77, 0x7377616d70, 0x73776170, 0x737761726d,
   0x7377656172, 0x7377656574, 0x7377696674, 0x7377696d, 0x7377696e67, 0x737769746368, 0x73776f7264,
   0x73796d626f6c, 0x73796d70746f6d, 0x7379727570, 0x73797374656d, 0x7461626c65, 0x7461636b6c65,
   0x746167, 0x7461696c, 0x74616c656e74, 0x74616c6b, 0x74616e6b, 0x74617065, 0x746172676574,
   0x7461736b, 0x7461737465, 0x746174746f6f, 0x74617869, 0x7465616368, 0x7465616d, 0x74656c6c,
   0x74656e, 0x74656e616e74, 0x74656e6e6973, 0x74656e74, 0x7465726d, 0x74657374, 0x74657874,
   0x7468616e6b, 0x74686174, 0x7468656d65, 0x7468656e, 0x7468656f7279, 0x7468657265, 0x74686579,
   0x7468696e67, 0x74686973, 0x74686f75676874, 0x7468726565, 0x746872697665, 0x7468726f77,
   0x7468756d62, 0x7468756e646572, 0x7469636b6574, 0x74696465, 0x7469676572, 0x74696c74,
   0x74696d626572, 0x74696d65, 0x74696e79, 0x746970, 0x7469726564, 0x746973737565, 0x7469746c65,
   0x746f617374, 0x746f626163636f, 0x746f646179, 0x746f64646c6572, 0x746f65, 0x746f676574686572,
   0x746f696c6574, 0x746f6b656e, 0x746f6d61746f, 0x746f6d6f72726f77, 0x746f6e65, 0x746f6e677565,
   0x746f6e69676874, 0x746f6f6c, 0x746f6f7468, 0x746f70, 0x746f706963, 0x746f70706c65, 0x746f726368,
   0x746f726e61646f, 0x746f72746f697365, 0x746f7373, 0x746f74616c, 0x746f7572697374, 0x746f77617264,
   0x746f776572, 0x746f776e, 0x746f79, 0x747261636b, 0x7472616465, 0x74726166666963, 0x747261676963,
   0x747261696e, 0x7472616e73666572, 0x74726170, 0x7472617368, 0x74726176656c, 0x74726179,
   0x7472656174, 0x74726565, 0x7472656e64, 0x747269616c, 0x7472696265, 0x747269636b,
   0x74726967676572, 0x7472696d, 0x74726970, 0x74726f706879, 0x74726f75626c65, 0x747275636b,
   0x74727565, 0x7472756c79, 0x7472756d706574, 0x7472757374, 0x7472757468, 0x747279, 0x74756265,
   0x74756974696f6e, 0x74756d626c65, 0x74756e61, 0x74756e6e656c, 0x7475726b6579, 0x7475726e,
   0x747572746c65, 0x7477656c7665, 0x7477656e7479, 0x7477696365, 0x7477696e, 0x7477697374, 0x74776f,
   0x74797065, 0x7479706963616c, 0x75676c79, 0x756d6272656c6c61, 0x756e61626c65, 0x756e6177617265,
   0x756e636c65, 0x756e636f766572, 0x756e646572, 0x756e646f, 0x756e66616972, 0x756e666f6c64,
   0x756e6861707079, 0x756e69666f726d, 0x756e69717565, 0x756e6974, 0x756e697665727365,
   0x756e6b6e6f776e, 0x756e6c6f636b, 0x756e74696c, 0x756e757375616c, 0x756e7665696c, 0x757064617465,
   0x75706772616465, 0x7570686f6c64, 0x75706f6e, 0x7570706572, 0x7570736574, 0x757262616e,
   0x75726765, 0x7573616765, 0x757365, 0x75736564, 0x75736566756c, 0x7573656c657373, 0x757375616c,
   0x7574696c697479, 0x766163616e74, 0x76616375756d, 0x7661677565, 0x76616c6964, 0x76616c6c6579,
   0x76616c7665, 0x76616e, 0x76616e697368, 0x7661706f72, 0x766172696f7573, 0x76617374, 0x7661756c74,
   0x76656869636c65, 0x76656c766574, 0x76656e646f72, 0x76656e74757265, 0x76656e7565, 0x76657262,
   0x766572696679, 0x76657273696f6e, 0x76657279, 0x76657373656c, 0x7665746572616e, 0x766961626c65,
   0x76696272616e74, 0x766963696f7573, 0x766963746f7279, 0x766964656f, 0x76696577, 0x76696c6c616765,
   0x76696e74616765, 0x76696f6c696e, 0x7669727475616c, 0x7669727573, 0x76697361, 0x7669736974,
   0x76697375616c, 0x766974616c, 0x7669766964, 0x766f63616c, 0x766f696365, 0x766f6964,
   0x766f6c63616e6f, 0x766f6c756d65, 0x766f7465, 0x766f79616765, 0x77616765, 0x7761676f6e,
   0x77616974, 0x77616c6b, 0x77616c6c, 0x77616c6e7574, 0x77616e74, 0x77617266617265, 0x7761726d,
   0x77617272696f72, 0x77617368, 0x77617370, 0x7761737465, 0x7761746572, 0x77617665, 0x776179,
   0x7765616c7468, 0x776561706f6e, 0x77656172, 0x77656173656c, 0x77656174686572, 0x776562,
   0x77656464696e67, 0x7765656b656e64, 0x7765697264, 0x77656c636f6d65, 0x77657374, 0x776574,
   0x7768616c65, 0x77686174, 0x7768656174, 0x776865656c, 0x7768656e, 0x7768657265, 0x77686970,
   0x77686973706572, 0x77696465, 0x7769647468, 0x77696665, 0x77696c64, 0x77696c6c, 0x77696e,
   0x77696e646f77, 0x77696e65, 0x77696e67, 0x77696e6b, 0x77696e6e6572, 0x77696e746572, 0x77697265,
   0x776973646f6d, 0x77697365, 0x77697368, 0x7769746e657373, 0x776f6c66, 0x776f6d616e,
   0x776f6e646572, 0x776f6f64, 0x776f6f6c, 0x776f7264, 0x776f726b, 0x776f726c64, 0x776f727279,
   0x776f727468, 0x77726170, 0x777265636b, 0x77726573746c65, 0x7772697374, 0x7772697465,
   0x77726f6e67, 0x79617264, 0x79656172, 0x79656c6c6f77, 0x796f75, 0x796f756e67, 0x796f757468,
   0x7a65627261, 0x7a65726f, 0x7a6f6e65, 0x7a6f6f]

/-- `en_words`. -/
def enWords : Words where
  indices := enCodes.map (spell 8)
  bits := 11
  sorted := true

end Wallet
end PtpCore
